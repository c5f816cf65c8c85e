import Layer4Lb.Net.Addr
import Mathlib

/-!
# Access control

`AccessControl` of `networking/acl.rs`: the allow and deny lists of a rule,
parsed from text, and the decision `is_allowed` makes for a client's address.

What `parse_cidrs` and `is_allowed` call comes from outside the repository:
`IpNet::from_str`, `IpNet::contains` and `IpNet::from(IpAddr)` of `ipnet`, and
the `FromStr` of `std`'s `IpAddr`.  They are the fields of an `IpParsers`, and
every result here holds whatever they do; the one law of `ipnet` a result
needs, that the single-host network of an address contains it, is a named
hypothesis of that result (`IpParsers.OfAddrContains`).  A network is an address
and a prefix length no longer than the address.

`parse_cidrs` drops every entry that neither parser accepts, and `is_allowed`
treats an empty allow list as no allow list.  So an allow list whose every entry
is malformed admits every client the deny list does not name.
-/

namespace Layer4Lb

/-- The width of an address in bits. -/
def IpAddr.width : IpAddr → Nat
  | .v4 _ => 32
  | .v6 _ => 128

/-- `IpNet`: an address and a prefix length of at most its width. -/
structure IpNet where
  addr : IpAddr
  prefixLen : Nat
  prefixLen_le : prefixLen ≤ addr.width
  deriving DecidableEq

/-- What the access control list calls of `ipnet` and `std`: the parsers
`parse_cidrs` tries in turn, `IpNet::from_str` then the parse of a plain
`IpAddr`; the single-host network `IpNet::from(ip)` it makes of a plain
address; and `IpNet::contains`, which `is_allowed` asks of every entry. -/
structure IpParsers where
  net : String → Option IpNet
  addr : String → Option IpAddr
  ofAddr : IpAddr → IpNet
  contains : IpNet → IpAddr → Bool

/-- The law of `ipnet` the single-host entries rest on: `IpNet::from(ip)`, the
`/32` or `/128` network of `ip`, contains `ip`. -/
def IpParsers.OfAddrContains (P : IpParsers) : Prop := ∀ ip, P.contains (P.ofAddr ip) ip = true

/-- Parsers that read no string, whose networks contain their own address only:
enough for the runs of the servers, whose rules have no access list. -/
def IpParsers.rejectAll : IpParsers where
  net _ := none
  addr _ := none
  ofAddr ip := ⟨ip, ip.width, Nat.le_refl _⟩
  contains net ip := decide (net.addr = ip)

variable (P : IpParsers)

/-- The closure of `parse_cidrs`: the network a CIDR string gives, else the
single-host network of a plain address, else nothing (the entry is logged and
dropped). -/
def parseEntry (s : String) : Option IpNet :=
  match P.net s with
  | some net => some net
  | none => (P.addr s).map P.ofAddr

/-- `parse_cidrs`: the entries of a list that parse, in order; no list gives no
entry. -/
def parseCidrs : Option (List String) → List IpNet
  | some strs => strs.filterMap (parseEntry P)
  | none => []

/-- `AccessControl`. -/
structure AccessControl where
  allowList : List IpNet
  denyList : List IpNet
  deriving DecidableEq

namespace AccessControl

/-- `AccessControl::new`. -/
def new (allowStrs denyStrs : Option (List String)) : AccessControl :=
  ⟨parseCidrs P allowStrs, parseCidrs P denyStrs⟩

/-- `is_allowed`: refused when a deny entry contains the address; else admitted
when the allow list is empty, or when one of its entries contains the address. -/
def isAllowed (contains : IpNet → IpAddr → Bool) (acl : AccessControl) (ip : IpAddr) : Bool :=
  if acl.denyList.any fun net => contains net ip then false
  else if acl.allowList.isEmpty then true
  else acl.allowList.any fun net => contains net ip

/-- The decision `is_allowed` makes, read off its two loops. -/
theorem isAllowed_iff (contains : IpNet → IpAddr → Bool) (acl : AccessControl) (ip : IpAddr) :
    acl.isAllowed contains ip = true ↔
      (∀ net ∈ acl.denyList, contains net ip = false) ∧
        (acl.allowList = [] ∨ ∃ net ∈ acl.allowList, contains net ip = true) := by
  unfold isAllowed
  by_cases hd : acl.denyList.any fun net => contains net ip
  · -- a deny entry contains the address
    obtain ⟨net, hnet, hc⟩ := List.any_eq_true.1 hd
    simp only [hd, if_true, Bool.false_eq_true, false_iff, not_and]
    intro hall
    exact absurd (hall net hnet) (by simp [hc])
  · have hdeny : ∀ net ∈ acl.denyList, contains net ip = false := by
      simpa using hd
    rw [if_neg hd, and_iff_right hdeny]
    by_cases ha : acl.allowList = []
    · simp [ha]
    · simp [ha, List.isEmpty_iff, List.any_eq_true]

end AccessControl

/-- The entries of a list are the strings of it that parse. -/
theorem mem_parseCidrs {strs : List String} {net : IpNet} :
    net ∈ parseCidrs P (some strs) ↔ ∃ s ∈ strs, parseEntry P s = some net := by
  simp [parseCidrs, List.mem_filterMap]

/-- A list gives no entry exactly when none of its strings parses. -/
theorem parseCidrs_eq_nil_iff {strs : List String} :
    parseCidrs P (some strs) = [] ↔ ∀ s ∈ strs, parseEntry P s = none := by
  simp [parseCidrs, List.filterMap_eq_nil_iff]

/-! ## The decision the lists are meant to make -/

/-- The decision an allow list and a deny list are meant to make on an address:
refused when an entry of the deny list contains it; else admitted when there is
no allow list, or an empty one, or an entry of it that contains the address.  An
entry is a string one of the two parsers accepts; other strings are none. -/
def Admits (allowStrs denyStrs : Option (List String)) (ip : IpAddr) : Prop :=
  (∀ s ∈ denyStrs.getD [], ∀ net, parseEntry P s = some net → P.contains net ip = false) ∧
    (allowStrs = none ∨ allowStrs = some [] ∨
      ∃ s ∈ allowStrs.getD [], ∃ net, parseEntry P s = some net ∧ P.contains net ip = true)

/-- The deny entries `new` keeps are the entries of the deny strings. -/
theorem forall_parseCidrs_iff (strs : Option (List String)) (ip : IpAddr) :
    (∀ net ∈ parseCidrs P strs, P.contains net ip = false) ↔
      ∀ s ∈ strs.getD [], ∀ net, parseEntry P s = some net → P.contains net ip = false := by
  cases strs with
  | none => simp [parseCidrs]
  | some strs =>
    simp only [mem_parseCidrs, Option.getD_some]
    constructor
    · intro h s hs net hnet
      exact h net ⟨s, hs, hnet⟩
    · rintro h net ⟨s, hs, hnet⟩
      exact h s hs net hnet

/-- An allow list admits the addresses of its entries. -/
theorem exists_parseCidrs_iff (strs : List String) (ip : IpAddr) :
    (∃ net ∈ parseCidrs P (some strs), P.contains net ip = true) ↔
      ∃ s ∈ strs, ∃ net, parseEntry P s = some net ∧ P.contains net ip = true := by
  simp only [mem_parseCidrs]
  constructor
  · rintro ⟨net, ⟨s, hs, hnet⟩, hc⟩
    exact ⟨s, hs, net, hnet, hc⟩
  · rintro ⟨s, hs, net, hnet, hc⟩
    exact ⟨net, ⟨s, hs, hnet⟩, hc⟩

/-- `is_allowed` makes the decision the lists are meant to make whenever there is
no allow list, an empty one, or one with an entry that parses. -/
theorem isAllowed_iff_admits {allowStrs denyStrs : Option (List String)} {ip : IpAddr}
    (h : allowStrs = none ∨ allowStrs = some [] ∨
      ∃ s ∈ allowStrs.getD [], (parseEntry P s).isSome) :
    (AccessControl.new P allowStrs denyStrs).isAllowed P.contains ip = true ↔ Admits P allowStrs denyStrs ip := by
  rw [AccessControl.isAllowed_iff, Admits]
  refine and_congr (forall_parseCidrs_iff P denyStrs ip) ?_
  simp only [AccessControl.new]
  rcases h with rfl | rfl | ⟨s, hs, hsome⟩
  · simp [parseCidrs]
  · simp [parseCidrs]
  · -- a list with an entry that parses keeps it, so it is neither missing nor empty
    cases allowStrs with
    | none => cases hs
    | some strs =>
      obtain ⟨net, hnet⟩ := Option.isSome_iff_exists.1 hsome
      have hne : parseCidrs P (some strs) ≠ [] :=
        List.ne_nil_of_mem ((mem_parseCidrs P).2 ⟨s, hs, hnet⟩)
      have hstrs : strs ≠ [] := List.ne_nil_of_mem hs
      simp only [hne, false_or, exists_parseCidrs_iff, Option.getD_some, reduceCtorEq,
        Option.some.injEq, hstrs]

/-- Parsers that read `10.0.0.0/24` and nothing else. -/
def IpParsers.tenNet : IpParsers :=
  { IpParsers.rejectAll with
    net := fun s => if s = "10.0.0.0/24" then some ⟨.v4 ⟨10, 0, 0, 0⟩, 24, by decide⟩ else none }

/-- With parsers that read `10.0.0.0/24`, the allow list of that one entry. -/
theorem isAllowed_iff_admits_v4 :
    (some ["10.0.0.0/24"] = none ∨ some ["10.0.0.0/24"] = some [] ∨
        ∃ s ∈ (some ["10.0.0.0/24"]).getD [], (parseEntry .tenNet s).isSome) ∧
      ((AccessControl.new .tenNet (some ["10.0.0.0/24"]) none).isAllowed IpParsers.tenNet.contains
          (.v4 ⟨10, 0, 0, 0⟩) = true ↔
        Admits .tenNet (some ["10.0.0.0/24"]) none (.v4 ⟨10, 0, 0, 0⟩)) := by
  have h : some ["10.0.0.0/24"] = none ∨ some ["10.0.0.0/24"] = some [] ∨
      ∃ s ∈ (some ["10.0.0.0/24"]).getD [], (parseEntry .tenNet s).isSome :=
    .inr (.inr ⟨"10.0.0.0/24", List.mem_singleton_self _, by simp [IpParsers.tenNet, parseEntry]⟩)
  exact ⟨h, isAllowed_iff_admits .tenNet h⟩

/-- A plain address in an allow list admits that address, unless a deny entry
contains it: `parse_cidrs` makes it the single-host network, which contains it. -/
theorem isAllowed_of_mem_allow_addr (hof : P.OfAddrContains) {allow : List String}
    {denyStrs : Option (List String)} {s : String} {ip : IpAddr} (hs : s ∈ allow)
    (hnet : P.net s = none) (haddr : P.addr s = some ip)
    (hdeny : ∀ net ∈ parseCidrs P denyStrs, P.contains net ip = false) :
    (AccessControl.new P (some allow) denyStrs).isAllowed P.contains ip = true := by
  have hentry : parseEntry P s = some (P.ofAddr ip) := by
    simp [parseEntry, hnet, haddr]
  refine (AccessControl.isAllowed_iff _ _ ip).2 ⟨hdeny, .inr ⟨P.ofAddr ip, ?_, hof ip⟩⟩
  exact (mem_parseCidrs P).2 ⟨s, hs, hentry⟩

/-- An allow list whose every string is malformed admits every address the
deny list does not name, where the lists are meant to refuse them all. -/
theorem isAllowed_of_malformed_allow_list {allow : List String} {denyStrs : Option (List String)}
    {ip : IpAddr} (hne : allow ≠ []) (hbad : ∀ s ∈ allow, parseEntry P s = none)
    (hdeny : ∀ net ∈ parseCidrs P denyStrs, P.contains net ip = false) :
    (AccessControl.new P (some allow) denyStrs).isAllowed P.contains ip = true ∧
      ¬ Admits P (some allow) denyStrs ip := by
  have hnil : parseCidrs P (some allow) = [] := (parseCidrs_eq_nil_iff P).2 hbad
  refine ⟨(AccessControl.isAllowed_iff _ _ ip).2 ⟨hdeny, .inl hnil⟩, ?_⟩
  rintro ⟨-, hnone | hempty | ⟨s, hs, net, hnet, -⟩⟩
  · cases hnone
  · exact hne (Option.some.inj hempty)
  · -- the entry would have parsed
    rw [hbad s hs] at hnet
    cases hnet

/-- An allow list of the one entry `10.0.0.0/33`, whose prefix is too long for
either parser, admits `192.168.1.1`. -/
theorem isAllowed_of_malformed_allow_list_v4 :
    ["10.0.0.0/33"] ≠ [] ∧ (∀ s ∈ ["10.0.0.0/33"], parseEntry .rejectAll s = none) ∧
      (∀ net ∈ parseCidrs .rejectAll none,
        IpParsers.rejectAll.contains net (.v4 ⟨192, 168, 1, 1⟩) = false) ∧
      (AccessControl.new .rejectAll (some ["10.0.0.0/33"]) none).isAllowed
          IpParsers.rejectAll.contains (.v4 ⟨192, 168, 1, 1⟩) = true ∧
        ¬ Admits .rejectAll (some ["10.0.0.0/33"]) none (.v4 ⟨192, 168, 1, 1⟩) := by
  have hbad : ∀ s ∈ ["10.0.0.0/33"], parseEntry .rejectAll s = none := by
    simp [IpParsers.rejectAll, parseEntry]
  have hdeny : ∀ net ∈ parseCidrs .rejectAll none,
      IpParsers.rejectAll.contains net (.v4 ⟨192, 168, 1, 1⟩) = false := by
    simp [parseCidrs]
  exact ⟨List.cons_ne_nil _ _, hbad, hdeny,
    isAllowed_of_malformed_allow_list _ (List.cons_ne_nil _ _) hbad hdeny⟩

end Layer4Lb
