import EmuControl.Daemon.Recording
import EmuControl.Network.Endpoint
import EmuControl.Proofs.DecimalInteger
import EmuControl.Proofs.Trace

/-!
# Where a connection leads

The web address of an endpoint is put together from the address and the port, and then taken apart
again by whoever contacts the host. `Uri.host` and `Uri.port?` are what is found there: the authority
ends at the first slash, question mark or number sign, the name of a user ends at the last `@`, and
a host ends at its closing bracket or at a colon.

An address may hold any of these marks, and preparing the connection does not look for them. The
connection leads to the endpoint exactly when there are none that cut the host short.
-/
namespace EmuControl.Network

open EmuControl.Number EmuControl.Text

/-- What follows the last occurrence of a character, or everything where it does not occur. -/
def behindLast (mark : Char) (cs : List Char) : List Char :=
  (cs.reverse.takeWhile (· ≠ mark)).reverse

/-- The host at the head of a text. -/
def hostAtHead (cs : List Char) : List Char :=
  if cs.head? = some '[' then cs.takeWhile (· ≠ ']') ++ (cs.dropWhile (· ≠ ']')).take 1
  else cs.takeWhile (· ≠ ':')

namespace Uri

/-- The host that is contacted, in brackets if it is written so. -/
def host (u : Uri) : List Char :=
  hostAtHead (behindLast '@' u.authority)

/-- The port that is contacted, if the authority names one. -/
def port? (u : Uri) : Option UInt16 :=
  if ':' ∈ u.authority then readUInt16? (String.ofList (behindLast ':' u.authority)) else none

end Uri

namespace Endpoint

/-- The host of an endpoint: its address, in brackets if that is one of the newer kind. -/
def host (e : Endpoint) : List Char :=
  if (ipv6? e.address).isSome then '[' :: e.address.toList ++ [']'] else e.address.toList

/-- The authority that names the endpoint. -/
def authority (e : Endpoint) : List Char :=
  e.host ++ ':' :: Nat.toDigits 10 e.port.toNat

end Endpoint

/-- The text ends where a host at its head ends: at the bracket that closes it, or before a colon. -/
def IsHost (cs : List Char) : Prop :=
  if cs.head? = some '[' then ']' ∉ cs.dropLast else ':' ∉ cs

/-! Characters of addresses -/

/-- The characters of which addresses of the newer kind consist. -/
def isAddressChar (c : Char) : Bool :=
  (hexValue? c).isSome || c = ':' || c = '.'

/-- The rest is what is left of a text after some characters of an address. -/
def LeavesAddress (cs rest : List Char) : Prop :=
  ∃ used, cs = used ++ rest ∧ ∀ c ∈ used, isAddressChar c = true

theorem LeavesAddress.refl (cs : List Char) : LeavesAddress cs cs :=
  ⟨[], rfl, by simp⟩

theorem LeavesAddress.trans {cs rest rest' : List Char} (h : LeavesAddress cs rest)
    (h' : LeavesAddress rest rest') : LeavesAddress cs rest' := by
  obtain ⟨used, rfl, hused⟩ := h
  obtain ⟨used', rfl, hused'⟩ := h'
  refine ⟨used ++ used', (List.append_assoc ..).symm, ?_⟩
  intro c hc
  rcases List.mem_append.mp hc with hc | hc
  · exact hused c hc
  · exact hused' c hc

theorem leavesAddress_dropWhile {p : Char → Bool} (hp : ∀ c, p c = true → isAddressChar c = true)
    (cs : List Char) : LeavesAddress cs (cs.dropWhile p) :=
  ⟨cs.takeWhile p, List.takeWhile_append_dropWhile.symm, fun c hc => hp c (List.mem_takeWhile_imp hc)⟩

theorem leavesAddress_after? {word cs rest : List Char}
    (hword : ∀ c ∈ word, isAddressChar c = true) (h : after? word cs = some rest) :
    LeavesAddress cs rest :=
  ⟨word, after?_eq_some_iff.mp h, hword⟩

theorem isAddressChar_of_isDigit {c : Char} (h : c.isDigit = true) : isAddressChar c = true := by
  have hdigit : ('0' ≤ c && c ≤ '9') = true := h
  simp [isAddressChar, hexValue?, hdigit]

theorem leavesAddress_octet? {cs rest : List Char} {n : Nat} (h : octet? cs = some (n, rest)) :
    LeavesAddress cs rest := by
  unfold octet? at h
  dsimp only at h
  split at h
  · cases h
  · split at h
    · cases h
      exact leavesAddress_dropWhile (fun c => isAddressChar_of_isDigit) cs
    · cases h

/-- A dot and the octet behind it. -/
theorem leavesAddress_dottedOctet {cs cs' rest : List Char} {n : Nat} (hdot : after? ['.'] cs = some cs')
    (hoctet : octet? cs' = some (n, rest)) : LeavesAddress cs rest :=
  (leavesAddress_after? (List.all_eq_true.mp rfl) hdot).trans (leavesAddress_octet? hoctet)

theorem leavesAddress_readIpv4? {cs rest : List Char} {a : Ipv4}
    (h : readIpv4? cs = some (a, rest)) : LeavesAddress cs rest := by
  unfold readIpv4? at h
  simp only [Option.bind_eq_bind, Option.bind_eq_some_iff, Prod.exists] at h
  obtain ⟨_, _, hfirst, _, hdot, _, _, hsecond, _, hdot', _, _, hthird, _, hdot'', _, _, hfourth,
    hend⟩ := h
  cases hend
  have htail := (leavesAddress_dottedOctet hdot hsecond).trans
    ((leavesAddress_dottedOctet hdot' hthird).trans (leavesAddress_dottedOctet hdot'' hfourth))
  exact (leavesAddress_octet? hfirst).trans htail

theorem leavesAddress_group? {cs rest : List Char} {n : Nat} (h : group? cs = some (n, rest)) :
    LeavesAddress cs rest := by
  unfold group? at h
  dsimp only at h
  split at h
  · cases h
    refine leavesAddress_dropWhile (fun c hc => ?_) cs
    simp [isAddressChar, hc]
  · cases h

theorem leavesAddress_separator? {isFirst : Bool} {cs rest : List Char}
    (h : separator? isFirst cs = some rest) : LeavesAddress cs rest := by
  unfold separator? at h
  split at h
  · cases h
    exact .refl cs
  · exact leavesAddress_after? (List.all_eq_true.mp rfl) h

theorem leavesAddress_embedded? {isFirst : Bool} {cs rest : List Char} {pair : List Nat}
    (h : embedded? isFirst cs = some (pair, rest)) : LeavesAddress cs rest := by
  unfold embedded? at h
  simp only [Option.bind_eq_bind, Option.bind_eq_some_iff, Prod.exists] at h
  obtain ⟨_, hseparator, a, _, hread, hend⟩ := h
  have hcs := (leavesAddress_separator? hseparator).trans (leavesAddress_readIpv4? hread)
  split at hend
  · rename_i hpair
    cases hpair
    cases hend
    exact hcs
  · cases hend

theorem leavesAddress_readGroups (limit : Nat) (isFirst : Bool) (cs : List Char) :
    LeavesAddress cs (readGroups limit isFirst cs).rest := by
  induction limit generalizing isFirst cs with
  | zero => exact .refl cs
  | succ limit ih =>
    unfold readGroups
    split
    · rename_i pair rest hembedded
      split at hembedded
      · cases hembedded
      · exact leavesAddress_embedded? hembedded
    · split
      · exact .refl cs
      · rename_i g rest hgroup
        obtain ⟨behind, hseparator, hgroup⟩ := Option.bind_eq_some_iff.mp hgroup
        exact (leavesAddress_separator? hseparator).trans ((leavesAddress_group? hgroup).trans (ih ..))

theorem leavesAddress_readIpv6? {cs rest : List Char} {a : Ipv6}
    (h : readIpv6? cs = some (a, rest)) : LeavesAddress cs rest := by
  unfold readIpv6? at h
  have hhead := leavesAddress_readGroups 8 true cs
  dsimp only at h
  split at h
  · cases h
    exact hhead
  · split at h
    · cases h
    · obtain ⟨behind, hcolons, hend⟩ := Option.bind_eq_some_iff.mp h
      cases hend
      refine hhead.trans ((leavesAddress_after? (List.all_eq_true.mp rfl) hcolons).trans ?_)
      exact leavesAddress_readGroups _ _ _

theorem isAddressChar_of_ipv6? {s : String} (h : (ipv6? s).isSome = true) :
    ∀ c ∈ s.toList, isAddressChar c = true := by
  obtain ⟨a, ha⟩ := Option.isSome_iff_exists.mp h
  unfold ipv6? complete? at ha
  split at ha
  · rename_i hread
    obtain ⟨used, hused, hchars⟩ := leavesAddress_readIpv6? hread
    rw [hused, List.append_nil]
    exact hchars
  · cases ha

/-! Marks in an authority -/

theorem forall_ne_of_not_mem {mark : Char} {cs : List Char} (h : mark ∉ cs) :
    ∀ c ∈ cs, decide (c ≠ mark) = true := by
  intro c hc
  rw [decide_eq_true_eq]
  intro hsame
  exact h (hsame ▸ hc)

theorem not_mem_takeWhile {mark : Char} {cs : List Char} :
    mark ∉ cs.takeWhile (· ≠ mark) := by
  intro h
  simpa using List.mem_takeWhile_imp h

theorem behindLast_append {mark : Char} {cs rest : List Char} (h : mark ∉ rest) :
    behindLast mark (cs ++ mark :: rest) = rest := by
  have hrest := forall_ne_of_not_mem (mt List.mem_reverse.mp h)
  unfold behindLast
  rw [List.reverse_append, List.reverse_cons, List.append_assoc, List.takeWhile_append_of_pos hrest]
  simp

theorem behindLast_eq_self {mark : Char} {cs : List Char} (h : mark ∉ cs) :
    behindLast mark cs = cs := by
  have hcs := forall_ne_of_not_mem (mt List.mem_reverse.mp h)
  unfold behindLast
  rw [List.takeWhile_eq_self_iff.mpr hcs, List.reverse_reverse]

theorem mem_of_mem_behindLast {mark c : Char} {cs : List Char} (h : c ∈ behindLast mark cs) :
    c ∈ cs ∧ c ≠ mark := by
  have hmem := List.mem_reverse.mp h
  have hmark := List.mem_takeWhile_imp hmem
  exact ⟨List.mem_reverse.mp (List.takeWhile_subset _ hmem), by simpa using hmark⟩

theorem mem_of_mem_hostAtHead {c : Char} {cs : List Char} (h : c ∈ hostAtHead cs) : c ∈ cs := by
  unfold hostAtHead at h
  split at h
  · rcases List.mem_append.mp h with h | h
    · exact List.takeWhile_subset _ h
    · exact List.dropWhile_subset _ (List.mem_of_mem_take h)
  · exact List.takeWhile_subset _ h

theorem hostAtHead_bracketed {inside rest : List Char} (h : ']' ∉ inside) :
    hostAtHead ('[' :: inside ++ ']' :: rest) = '[' :: inside ++ [']'] := by
  have hopened : ']' ∉ '[' :: inside := by simp [h]
  have hinside := forall_ne_of_not_mem hopened
  unfold hostAtHead
  rw [List.takeWhile_append_of_pos hinside, List.dropWhile_append_of_pos hinside]
  simp

theorem hostAtHead_plain {cs rest : List Char} (hhead : cs.head? ≠ some '[') (hcolon : ':' ∉ cs) :
    hostAtHead (cs ++ ':' :: rest) = cs := by
  have hopen : (cs ++ ':' :: rest).head? ≠ some '[' := by
    cases cs with
    | nil => simp
    | cons c cs => exact hhead
  unfold hostAtHead
  rw [if_neg hopen, List.takeWhile_append_of_pos (forall_ne_of_not_mem hcolon)]
  simp

/-- A host that closes the bracket it opens is found before a port. -/
theorem hostAtHead_of_isHost {cs rest : List Char} (h : IsHost cs) (hclosed : '[' ∈ cs → ']' ∈ cs) :
    hostAtHead (cs ++ ':' :: rest) = cs := by
  unfold IsHost at h
  split at h
  · rename_i hopen
    obtain ⟨tail, rfl⟩ := List.head?_eq_some_iff.mp hopen
    have hclose : ']' ∈ tail := by simpa using hclosed List.mem_cons_self
    rcases List.eq_nil_or_concat tail with rfl | ⟨inside, last, rfl⟩
    · cases hclose
    · rw [List.concat_eq_append] at h hclose ⊢
      rw [← List.cons_append, List.dropLast_concat] at h
      have hinside : ']' ∉ inside := fun hmem => h (List.mem_cons_of_mem _ hmem)
      obtain rfl : last = ']' := by simpa [hinside, eq_comm] using hclose
      simpa using hostAtHead_bracketed hinside
  · rename_i hopen
    exact hostAtHead_plain hopen h

theorem isHost_hostAtHead (cs : List Char) : IsHost (hostAtHead cs) := by
  unfold hostAtHead
  split
  · rename_i hopen
    obtain ⟨rest, rfl⟩ := List.head?_eq_some_iff.mp hopen
    have hinside : ']' ∉ ('[' :: rest).takeWhile (· ≠ ']') := not_mem_takeWhile
    have hhead : (('[' :: rest).takeWhile (· ≠ ']') ++
        (('[' :: rest).dropWhile (· ≠ ']')).take 1).head? = some '[' := by simp
    unfold IsHost
    rw [if_pos hhead]
    cases ('[' :: rest).dropWhile (· ≠ ']') with
    | nil =>
      rw [List.take_nil, List.append_nil]
      exact fun h => hinside (List.dropLast_subset _ h)
    | cons c behind =>
      rw [List.take_succ_cons, List.take_zero, List.dropLast_concat]
      exact hinside
  · rename_i hopen
    have hhead : (cs.takeWhile (· ≠ ':')).head? ≠ some '[' := by
      cases cs with
      | nil => simp
      | cons c rest =>
        rw [List.takeWhile_cons]
        split
        · exact hopen
        · simp
    unfold IsHost
    rw [if_neg hhead]
    exact not_mem_takeWhile

/-! What the reader of web addresses accepts -/

namespace AuthorityState

theorem step_brackets {s s' : AuthorityState} {c : Char} (h : s.step c = some s') :
    s'.opened = (s.opened || c = '[') ∧ s'.closed = (s.closed || c = ']') := by
  unfold step at h
  grind

theorem foldlM_brackets {s s' : AuthorityState} {cs : List Char} (h : cs.foldlM step s = some s') :
    s'.opened = (s.opened || '[' ∈ cs) ∧ s'.closed = (s.closed || ']' ∈ cs) := by
  induction cs generalizing s with
  | nil =>
    cases h
    simp
  | cons c cs ih =>
    rw [List.foldlM_cons] at h
    obtain ⟨t, ht, h⟩ := Option.bind_eq_some_iff.mp h
    rw [(ih h).1, (ih h).2, (step_brackets ht).1, (step_brackets ht).2]
    simp [Bool.or_assoc, eq_comm]

end AuthorityState

theorem mem_bracket_of_isAuthority {cs : List Char} (h : isAuthority cs = true) (hopen : '[' ∈ cs) :
    ']' ∈ cs := by
  unfold isAuthority at h
  rw [Bool.and_eq_true] at h
  obtain ⟨-, hend⟩ := h
  cases hrun : cs.foldlM AuthorityState.step {} with
  | none =>
    rw [hrun] at hend
    cases hend
  | some s =>
    have hbrackets := AuthorityState.foldlM_brackets hrun
    rw [hrun, Option.any_some, AuthorityState.isFinal] at hend
    simp only [Bool.and_eq_true, decide_eq_true_eq] at hend
    have hclosed : s.opened = s.closed := hend.1.1.1
    rw [hbrackets.1, hbrackets.2] at hclosed
    simpa [hopen] using hclosed

namespace Endpoint

variable {e : Endpoint}

theorem toList_uri (e : Endpoint) : e.uri.toList = "http://".toList ++ e.authority := by
  unfold uri authority host
  split <;> simp [writeNatural]

theorem authority_of_parse? {u : Uri} (h : Uri.parse? e.uri = some u) :
    u.authority = e.authority.takeWhile (!endsAuthority ·) ∧ isAuthority u.authority = true := by
  unfold Uri.parse? at h
  split at h
  · rename_i rest htext
    obtain rfl : e.authority = rest := by simpa [toList_uri] using htext
    dsimp only at h
    split at h
    · rename_i haccepted
      cases h
      simp only [Bool.and_eq_true] at haccepted
      exact ⟨rfl, haccepted.1.2⟩
    · cases h
  · cases h

/-- Preparing the connection succeeds in any world as long as there is a web address. -/
theorem parse?_of_connect {σ : Type} {world : World σ} {s : σ}
    (h : (e.connect.run.run world s).1 = .ok ()) : ∃ u, Uri.parse? e.uri = some u := by
  have hyields := e.connect.run.yields_run world s
  rw [h] at hyields
  unfold connect at hyields
  rcases Program.yields_except_bind.mp hyields with ⟨_, _, hend⟩ | ⟨_, _, _, _, hend, _⟩
  · cases hend
  · split at hend
    · rcases Program.yields_except_bind.mp hend with ⟨_, hthrown, hsame⟩ | ⟨_, _, _, hthrown, _, _⟩
      · cases hsame
      · cases hthrown.2
    · rename_i hsome
      rwa [Bool.not_eq_true, Option.isNone_eq_false_iff, Option.isSome_iff_exists] at hsome

theorem host_of_ipv6 (h : (ipv6? e.address).isSome = true) :
    e.host = '[' :: e.address.toList ++ [']'] :=
  if_pos h

theorem host_of_not_ipv6 (h : ¬ (ipv6? e.address).isSome = true) : e.host = e.address.toList :=
  if_neg h

theorem mem_host_of_mem_address {c : Char} (h : c ∈ e.address.toList) : c ∈ e.host := by
  unfold host
  split
  · simp [h]
  · exact h

/-- Besides the address there are only digits, a colon and brackets in the authority. -/
theorem mem_address_of_mem_authority {c : Char} (h : c ∈ e.authority) (hdigit : c.isDigit = false)
    (hmark : c ∉ [':', '[', ']']) : c ∈ e.address.toList := by
  have hport : c ∉ Nat.toDigits 10 e.port.toNat := by
    intro hc
    rw [(isDigits_toDigits _).2 c hc] at hdigit
    cases hdigit
  simp only [List.mem_cons, List.not_mem_nil, or_false, not_or] at hmark
  unfold authority host at h
  split at h <;> simpa [hport, hmark] using h

theorem forall_authority_iff :
    (∀ c ∈ e.authority, endsAuthority c = false) ↔
      ∀ c ∈ e.address.toList, endsAuthority c = false := by
  constructor
  · intro h c hc
    exact h c (List.mem_append_left _ (mem_host_of_mem_address hc))
  · intro h c hc
    by_contra hends
    rw [Bool.not_eq_false] at hends
    have hmark : c.isDigit = false ∧ c ∉ [':', '[', ']'] := by
      simp only [endsAuthority, Bool.or_eq_true, decide_eq_true_eq] at hends
      rcases hends with (rfl | rfl) | rfl <;> decide
    rw [h c (mem_address_of_mem_authority hc hmark.1 hmark.2)] at hends
    cases hends

theorem readUInt16?_port (e : Endpoint) :
    readUInt16? (String.ofList (Nat.toDigits 10 e.port.toNat)) = some e.port := by
  have hdecimal := IsDecimal.unsigned (isDigits_toDigits e.port.toNat)
  rw [Nat.ofDigitChars_ten_toDigits] at hdecimal
  have hbound := e.port.toNat_lt
  have hread : readWithin? 0 65535 (String.ofList (Nat.toDigits 10 e.port.toNat)) =
      some (e.port.toNat : Int) := by
    rw [readWithin?_eq_some_iff, String.toList_ofList]
    exact ⟨hdecimal, by omega, by omega⟩
  rw [readUInt16?, hread]
  simp

/-- Whoever the authority of the endpoint is for contacts its port. -/
theorem port?_of_authority {u : Uri} (h : u.authority = e.authority) : u.port? = some e.port := by
  have hcolon : ':' ∉ Nat.toDigits 10 e.port.toNat := by
    intro hc
    exact absurd ((isDigits_toDigits _).2 _ hc) (by decide)
  unfold Uri.port? 
  rw [h, authority, if_pos (by simp), behindLast_append hcolon, readUInt16?_port]

/-- An address that opens a bracket and is accepted closes it. -/
theorem host_of_authority {u : Uri} (h : u.authority = e.authority)
    (haccepted : isAuthority u.authority = true) (hat : '@' ∉ e.address.toList)
    (hhost : (ipv6? e.address).isSome = true ∨ IsHost e.address.toList) : u.host = e.host := by
  have hauthority : '@' ∉ e.authority := by
    intro hc
    exact hat (mem_address_of_mem_authority hc (by decide) (by decide))
  unfold Uri.host
  rw [h, behindLast_eq_self hauthority]
  rw [h] at haccepted
  by_cases hipv6 : (ipv6? e.address).isSome = true
  · have hclose : ']' ∉ e.address.toList := by
      intro hc
      exact absurd (isAddressChar_of_ipv6? hipv6 _ hc) (by decide)
    rw [authority, host_of_ipv6 hipv6, List.append_assoc]
    exact hostAtHead_bracketed hclose
  · rw [authority, host_of_not_ipv6 hipv6] at haccepted ⊢
    apply hostAtHead_of_isHost (hhost.resolve_left hipv6)
    intro hopen
    have hclose := mem_bracket_of_isAuthority haccepted (List.mem_append_left _ hopen)
    have hport : ']' ∉ Nat.toDigits 10 e.port.toNat := by
      intro hc
      exact absurd ((isDigits_toDigits _).2 _ hc) (by decide)
    simpa [hport] using hclose

/-- Of an authority that is cut short, nothing but the head of the address is left. -/
theorem authority_of_endsAuthority {u : Uri}
    (hauthority : u.authority = e.authority.takeWhile (!endsAuthority ·))
    (hends : ∃ c ∈ e.address.toList, endsAuthority c = true) :
    u.authority = e.address.toList.takeWhile (!endsAuthority ·) := by
  obtain ⟨c, hc, hends⟩ := hends
  have hipv6 : ¬ (ipv6? e.address).isSome = true := by
    intro hipv6
    have hchar := isAddressChar_of_ipv6? hipv6 c hc
    simp only [endsAuthority, Bool.or_eq_true, decide_eq_true_eq] at hends
    rcases hends with (rfl | rfl) | rfl <;> exact absurd hchar (by decide)
  have hcut : (e.address.toList.takeWhile (!endsAuthority ·)).length ≠ e.address.toList.length := by
    intro hlength
    have hall := List.takeWhile_eq_self_iff.mp ((List.takeWhile_prefix _).eq_of_length hlength)
    simpa [hends] using hall c hc
  rw [hauthority, authority, host_of_not_ipv6 hipv6, List.takeWhile_append, if_neg hcut]

end Endpoint

/-- A connection that could be prepared leads to the host and the port of the endpoint exactly when
the address has no mark that ends an authority or the name of a user, and none that ends a host
before its own end. With a mark that ends an authority, the port of the endpoint is lost. -/
theorem connection_target {σ : Type} (world : World σ) (s : σ) (e : Endpoint)
    (hconnect : (e.connect.run.run world s).1 = .ok ()) :
    ∃ u, Uri.parse? e.uri = some u ∧
      (u.authority = e.authority ↔ ∀ c ∈ e.address.toList, endsAuthority c = false) ∧
      (u.host = e.host ∧ u.port? = some e.port ↔
        (∀ c ∈ e.address.toList, endsAuthority c = false ∧ c ≠ '@') ∧
          ((ipv6? e.address).isSome = true ∨ IsHost e.address.toList)) ∧
      ((∃ c ∈ e.address.toList, endsAuthority c = true) →
        u.authority = e.address.toList.takeWhile (!endsAuthority ·)) := by
  obtain ⟨u, hu⟩ := Endpoint.parse?_of_connect hconnect
  obtain ⟨hauthority, haccepted⟩ := Endpoint.authority_of_parse? hu
  have hwhole : u.authority = e.authority ↔ ∀ c ∈ e.address.toList, endsAuthority c = false := by
    rw [hauthority, List.takeWhile_eq_self_iff, ← Endpoint.forall_authority_iff]
    simp
  refine ⟨u, hu, hwhole, ⟨?_, ?_⟩, Endpoint.authority_of_endsAuthority hauthority⟩
  · intro h
    have hhost : hostAtHead (behindLast '@' u.authority) = e.host := h.1
    constructor
    · intro c hc
      have hmem := Endpoint.mem_host_of_mem_address hc
      rw [← hhost] at hmem
      obtain ⟨hmem, hat⟩ := mem_of_mem_behindLast (mem_of_mem_hostAtHead hmem)
      rw [hauthority] at hmem
      exact ⟨by simpa using List.mem_takeWhile_imp hmem, hat⟩
    · by_cases hipv6 : (ipv6? e.address).isSome = true
      · exact .inl hipv6
      · rw [Endpoint.host_of_not_ipv6 hipv6] at hhost
        exact .inr (hhost ▸ isHost_hostAtHead _)
  · intro h
    have hsame := hwhole.mpr fun c hc => (h.1 c hc).1
    refine ⟨Endpoint.host_of_authority hsame haccepted ?_ h.2, Endpoint.port?_of_authority hsame⟩
    intro hat
    exact (h.1 _ hat).2 rfl

/-- An address of the newer kind stands in brackets on the way, so that its colons do no harm. -/
theorem connection_target_ipv6 :
    let e : Endpoint := { address := "fe80::1", port := 443 }
    (e.connect.run.run (Machine.world Recording.reply) { daemon := {} }).1 = .ok () ∧
      ∃ u, Uri.parse? e.uri = some u ∧ u.host = "[fe80::1]".toList ∧ u.port? = some 443 := by
  intro e
  have hconnect : (e.connect.run.run (Machine.world Recording.reply) { daemon := {} }).1 = .ok () := by
    decide +kernel
  obtain ⟨u, hu, -, htarget, -⟩ := connection_target _ _ e hconnect
  have haddress : ∀ c ∈ e.address.toList, endsAuthority c = false ∧ c ≠ '@' := by
    simp [e, endsAuthority]
  obtain ⟨hhost, hport⟩ := htarget.mpr ⟨haddress, .inl (by decide +kernel)⟩
  exact ⟨hconnect, u, hu, hhost.trans (by decide +kernel), hport⟩

/-- The slash in the address ends the authority before the port, and nothing complains. -/
theorem connection_target_slash :
    let e : Endpoint := { address := "localhost/core", port := 50051 }
    (e.connect.run.run (Machine.world Recording.reply) { daemon := {} }).1 = .ok () ∧
      ∃ u, Uri.parse? e.uri = some u ∧ u.authority = "localhost".toList ∧
        u.authority ≠ "localhost/core:50051".toList ∧ u.port? = none := by
  intro e
  exact ⟨by decide +kernel, ⟨"localhost".toList, "/core:50051".toList⟩, by decide +kernel⟩

end EmuControl.Network
