import EmuControl.Wire.Method

/-!
# Message names

Every message has a name on the wire: the records that messages are made of have names of their own,
and the two messages of a method are named after it.
-/
namespace EmuControl.Wire

/-- The schemas of the records that requests and responses are made of. -/
def recordSchemas : List (String × Schema) :=
  [("Position", Message.schema Position),
   ("Node", Message.schema Node),
   ("Interface", Message.schema Interface),
   ("LinkOptions", Message.schema LinkOptions),
   ("Link", Message.schema Link),
   ("Session", Message.schema Session),
   ("SessionSummary", Message.schema SessionSummary),
   ("Hook", Message.schema Hook),
   ("ConfigOption", Message.schema ConfigOption),
   ("ConfigGroup", Message.schema ConfigGroup),
   ("Service", Message.schema Service),
   ("ServiceDefaults", Message.schema ServiceDefaults),
   ("NodeServiceData", Message.schema ServiceData),
   ("MobilityConfig", Message.schema OptionGroups)]

/-- The schemas of all requests and responses. -/
def exchangeSchemas : List (String × Schema) :=
  Method.all.flatMap fun m =>
    [(m.name ++ "Request", Message.schema m.Request),
     (m.name ++ "Response", Message.schema m.Response)]

/-- The schema of the message with a name. -/
def schemaNamed? (name : String) : Option Schema :=
  ((recordSchemas ++ exchangeSchemas).find? fun e => e.1 == name).map (·.2)

end EmuControl.Wire
