import MockRedirect.Proofs.Probe
/-! What becomes of each mock of a plan, and the ids that the mocks get: the first free one from the
preferred id on. Whether a mock gets its preferred id can be told from the ids that the mocks before it
prefer: it does unless they pile up just before that id. -/
namespace MockRedirect
open Text

namespace Mock

/-- Whether there can be a rule for a mock. -/
def isBuildable (m : Mock) : Bool := (m.rule m.id.ruleId).toBool

/-- Whether a plan should have a rule for a mock. -/
def wantsRule (m : Mock) : Bool := m.enabled && m.isBuildable

theorem isBuildable_iff {m : Mock} : m.isBuildable = true ↔ trimmed m.urlTemplate ≠ "" ∧
    isAscii (filterText (trimmed m.urlTemplate) m.verb).toList = true := by
  have hok {x : Except RuleError Rule} : x.toBool = true ↔ ∃ r, x = .ok r := by cases x <;> simp [Except.toBool]
  rw [isBuildable, hok]
  simp only [rule_eq_ok_iff, exists_eq_right]

theorem isBuildable_of_rule {m : Mock} {id : Nat} {r : Rule} (h : m.rule id = .ok r) :
    m.isBuildable = true := isBuildable_iff.2 (rule_eq_ok_iff.1 h).1

/-- Whether there can be a rule does not depend on its id. -/
theorem rule_cases (m : Mock) :
    (m.isBuildable = true ∧ ∀ id, ∃ r, m.rule id = .ok r) ∨
      (m.isBuildable = false ∧ ∀ id, ∃ cause, m.rule id = .error cause) := by
  cases hb : m.isBuildable with
  | true => exact .inl ⟨rfl, fun id => ⟨_, rule_eq_ok_iff.2 ⟨isBuildable_iff.1 hb, rfl⟩⟩⟩
  | false =>
    refine .inr ⟨rfl, fun id => ?_⟩
    cases hr : m.rule id with
    | error cause => exact ⟨cause, rfl⟩
    | ok r => exact absurd (isBuildable_of_rule hr) (by simp [hb])

theorem isBuildable_eq_false {m : Mock} {id : Nat} {cause : RuleError} (h : m.rule id = .error cause) :
    m.isBuildable = false := by
  obtain ⟨-, hok⟩ | ⟨hb, -⟩ := rule_cases m
  · obtain ⟨r, hr⟩ := hok id
    cases hr.symm.trans h
  · exact hb

/-- Mocks that differ in their ids only. -/
def numbered (n : Nat) : Mock := ⟨⟨n⟩, "", "/a?MT=GET", .get, .int 0, true⟩

theorem isBuildable_numbered (n : Nat) : (numbered n).isBuildable = true := by
  have hne : trimmed "/a?MT=GET" ≠ "" := by decide
  have hascii : isAscii (filterText (trimmed "/a?MT=GET") .get).toList = true := by decide
  exact isBuildable_iff.2 ⟨hne, hascii⟩

theorem wantsRule_numbered (n : Nat) : (numbered n).wantsRule = true := by
  rw [wantsRule, isBuildable_numbered]
  rfl

end Mock

namespace Plan

/-! ### What becomes of the mocks -/

/-- An enabled mock, and the rule that it gets if it gets one. -/
structure Outcome where
  mock : Mock
  rule? : Option Rule

/-- The ids of the rules among outcomes. -/
def taken (os : List Outcome) : List Nat := (os.filterMap (·.rule?)).map (·.id)

/-- What can become of an enabled mock once some ids are taken: it gets a rule with the first free id, or
there can be no rule for it, or no id is left. -/
inductive Settles (taken : List Nat) (m : Mock) : Option Rule → Prop
  | ruled {r : Rule} (hfirst : FirstFree taken m.id.ruleId r.id) (hrule : m.rule r.id = .ok r) :
    Settles taken m (some r)
  | refused (h : ∀ id, ∃ cause, m.rule id = .error cause) : Settles taken m none
  | full (h : ∀ id, isManaged id = true → id ∈ taken) : Settles taken m none

/-- A plan for mocks, told by what becomes of the enabled ones in order. -/
structure Accounts (p : Plan) (mocks : List Mock) (os : List Outcome) : Prop where
  mocks : os.map (·.mock) = mocks.filter (·.enabled)
  rules : p.rules.toList = os.filterMap (·.rule?)
  skipped : p.skipped.toList = (os.filter (·.rule?.isNone)).map (·.mock.id)
  settles : ∀ i (h : i < os.length), Settles (taken (os.take i)) os[i].mock os[i].rule?

theorem accounts_empty : Accounts empty [] [] where
  mocks := rfl
  rules := rfl
  skipped := rfl
  settles _ h := absurd h (Nat.not_lt_zero _)

/-- One more enabled mock is settled one way or another. -/
theorem exists_settles {p : Plan} (hs : Sound p) {m : Mock} (he : m.enabled = true) :
    ∃ rule?, Settles (p.rules.toList.map (·.id)) m rule? ∧
      (p.add m).rules.toList = p.rules.toList ++ rule?.toList ∧
      (p.add m).skipped.toList = p.skipped.toList ++ if rule?.isNone then [m.id] else [] := by
  have hp := MockId.isManaged_ruleId m.id
  obtain ⟨-, hd⟩ | ⟨-, hadd, hf | ⟨id, cause, hc⟩⟩ | ⟨-, id, r, hf, hr, hadd⟩ := add_cases p m
  · cases he.symm.trans hd
  · exact ⟨none, .full fun id hid => (hs.used id).1 (freeId?_eq_none hp hid hf), by simp [hadd]⟩
  · obtain ⟨hb, -⟩ | ⟨-, herror⟩ := m.rule_cases
    · cases (Mock.isBuildable_eq_false hc).symm.trans hb
    · exact ⟨none, .refused herror, by simp [hadd]⟩
  · obtain rfl := Mock.id_of_rule hr
    exact ⟨some r, .ruled (firstFree_of_freeId? hs.used hp hf) hr, by simp [hadd]⟩

theorem add_of_disabled {m : Mock} (he : m.enabled = false) (p : Plan) : p.add m = p := by simp [add, he]

/-- What has become of the mocks so far stays as it is when one more is planned. -/
theorem Accounts.push {p : Plan} {mocks : List Mock} {os : List Outcome} (ha : Accounts p mocks os)
    (hs : Sound p) (m : Mock) : ∃ os', Accounts (p.add m) (mocks ++ [m]) (os ++ os') := by
  cases he : m.enabled with
  | false =>
    rw [add_of_disabled he]
    refine ⟨[], ?_⟩
    rw [List.append_nil]
    exact ⟨by simp [ha.mocks, he], ha.rules, ha.skipped, ha.settles⟩
  | true =>
    obtain ⟨rule?, hm, hrules, hskipped⟩ := exists_settles hs he
    rw [ha.rules] at hm
    refine ⟨[⟨m, rule?⟩], ?_, ?_, ?_, fun i hi => ?_⟩
    · simp [ha.mocks, he]
    · rw [hrules, ha.rules, List.filterMap_append]
      cases rule? <;> rfl
    · rw [hskipped, ha.skipped, List.filter_append, List.map_append]
      cases rule? <;> rfl
    · -- only the new outcome is to be settled: what was taken before the others is the same
      rcases Nat.lt_or_ge i os.length with hlt | hge
      · rw [List.take_append_of_le_length (Nat.le_of_lt hlt), List.getElem_append_left hlt]
        exact ha.settles i hlt
      · obtain rfl : i = os.length := by
          rw [List.length_append, List.length_singleton] at hi
          omega
        rw [List.take_left, List.getElem_concat_length rfl]
        exact hm

theorem Accounts.foldl {p : Plan} {before : List Mock} {os : List Outcome}
    (ha : Accounts p before os) (hs : Sound p) (mocks : List Mock) :
    ∃ os', Accounts (mocks.foldl Plan.add p) (before ++ mocks) (os ++ os') := by
  induction mocks generalizing p before os with
  | nil => exact ⟨[], by simpa using ha⟩
  | cons m mocks ih =>
    obtain ⟨os', ha'⟩ := ha.push hs m
    obtain ⟨os'', ha''⟩ := ih ha' (hs.add m)
    exact ⟨os' ++ os'', by simpa using ha''⟩

theorem exists_accounts (mocks : List Mock) : ∃ os, Accounts (ofMocks mocks) mocks os :=
  accounts_empty.foldl sound_empty mocks

theorem nodup_add {p : Plan} (hs : Sound p) (hn : (p.rules.toList.map (·.id)).Nodup) (m : Mock) :
    ((p.add m).rules.toList.map (·.id)).Nodup := by
  obtain ⟨hadd, -⟩ | ⟨-, hadd, -⟩ | ⟨-, id, r, hf, hr, hadd⟩ := add_cases p m
  · rwa [hadd]
  · rwa [hadd]
  · have hnew : r.id ∉ p.rules.toList.map (·.id) := by
      rw [Mock.id_of_rule hr, ← hs.used]
      exact (freeId?_eq_some (MockId.isManaged_ruleId m.id) hf).2
    rw [hadd, Array.toList_push, List.map_append, List.nodup_append]
    refine ⟨hn, by simp, fun id hid other ho => ?_⟩
    rw [List.map_singleton, List.mem_singleton] at ho
    rintro rfl
    exact hnew (ho ▸ hid)

theorem nodup_foldl {p : Plan} (hs : Sound p) (hn : (p.rules.toList.map (·.id)).Nodup)
    (mocks : List Mock) : ((mocks.foldl add p).rules.toList.map (·.id)).Nodup := by
  induction mocks generalizing p with
  | nil => exact hn
  | cons m mocks ih => exact ih (hs.add m) (nodup_add hs hn m)

theorem nodup_ofMocks (mocks : List Mock) : ((ofMocks mocks).rules.toList.map (·.id)).Nodup :=
  nodup_foldl sound_empty (by simp [empty]) mocks

/-- In a plan no two rules have the same id, and all of the ids are managed. Each enabled mock has either
a rule or a place among the skipped ones, in order, and no other mock has one: a rule with the first
managed id from the preferred one on that no mock before it has, and no rule only if there can be none or
all managed ids are taken. -/
theorem ofMocks_assigns (mocks : List Mock) :
    ((ofMocks mocks).rules.toList.map (·.id)).Nodup ∧
    (∀ r ∈ (ofMocks mocks).rules.toList, 1 ≤ r.id ∧ r.id ≤ lastManagedId) ∧
    ∃ os, Accounts (ofMocks mocks) mocks os := by
  refine ⟨nodup_ofMocks mocks, fun r hr => ?_, exists_accounts mocks⟩
  exact isManaged_iff.1 ((sound_ofMocks mocks).managed r hr)

/-! ### Ids in use -/

namespace Accounts

variable {p : Plan} {mocks : List Mock} {os : List Outcome}

theorem taken_take_subset (os : List Outcome) (i : Nat) : taken (os.take i) ⊆ taken os :=
  (((List.take_sublist i os).filterMap _).map _).subset

theorem rule_of_some (ha : Accounts p mocks os) {o : Outcome} (ho : o ∈ os) {r : Rule}
    (hr : o.rule? = some r) : o.mock.rule r.id = .ok r ∧
      ∃ before ⊆ taken os, FirstFree before o.mock.id.ruleId r.id := by
  obtain ⟨i, hi, rfl⟩ := List.mem_iff_getElem.1 ho
  have hs := ha.settles i hi
  rw [hr] at hs
  cases hs with
  | ruled hfirst hrule => exact ⟨hrule, _, taken_take_subset os i, hfirst⟩

theorem isBuildable_of_none (ha : Accounts p mocks os) {o : Outcome} (ho : o ∈ os)
    (hr : o.rule? = none) {id : Nat} (hid : isManaged id = true) (hfree : id ∉ taken os) :
    o.mock.isBuildable = false := by
  obtain ⟨i, hi, rfl⟩ := List.mem_iff_getElem.1 ho
  have hs := ha.settles i hi
  rw [hr] at hs
  cases hs with
  | refused h =>
    obtain ⟨cause, hc⟩ := h id
    exact Mock.isBuildable_eq_false hc
  | full h => exact absurd (taken_take_subset os i (h id hid)) hfree

end Accounts

/-- The id that a mock asked for, with the one that it got. -/
def Outcome.grant? (o : Outcome) : Option Grant := o.rule?.map fun r => ⟨o.mock.id.ruleId, r.id⟩

def grants (os : List Outcome) : List Grant := os.filterMap (·.grant?)

/-- The ids that the mocks prefer for which there should be rules. -/
def preferred (mocks : List Mock) : List Nat := (mocks.filter (·.wantsRule)).map (·.id.ruleId)

theorem given_grants (os : List Outcome) : (grants os).map (·.given) = taken os := by
  simp [grants, taken, Outcome.grant?, List.map_filterMap, Function.comp_def]

theorem asked_grants (os : List Outcome) :
    (grants os).map (·.asked) = (os.filter (·.rule?.isSome)).map (·.mock.id.ruleId) := by
  induction os with
  | nil => rfl
  | cons o os ih =>
    obtain ⟨m, _ | r⟩ := o
    · exact ih
    · exact congrArg (m.id.ruleId :: ·) ih

namespace Accounts

variable {p : Plan} {mocks : List Mock} {os : List Outcome}

theorem preferred_eq (ha : Accounts p mocks os) :
    preferred mocks = (os.filter (·.mock.isBuildable)).map (·.mock.id.ruleId) := by
  have hwants : mocks.filter (·.wantsRule) = (mocks.filter (·.enabled)).filter (·.isBuildable) := by
    rw [List.filter_filter]
    exact List.filter_congr fun m _ => Bool.and_comm _ _
  rw [preferred, hwants, ← ha.mocks, List.filter_map, List.map_map]
  simp only [Function.comp_def]

theorem asked_sublist (ha : Accounts p mocks os) : ((grants os).map (·.asked)).Sublist (preferred mocks) := by
  have hsome : os.filter (·.rule?.isSome) = (os.filter (·.mock.isBuildable)).filter (·.rule?.isSome) := by
    rw [List.filter_filter]
    refine List.filter_congr fun o ho => ?_
    cases hr : o.rule? with
    | none => rfl
    | some r => simp [Mock.isBuildable_of_rule (ha.rule_of_some ho hr).1]
  rw [asked_grants, ha.preferred_eq, hsome]
  exact List.filter_sublist.map _

/-- While an id is free, each mock for which there can be a rule got what it asked for or another id. -/
theorem asked_eq (ha : Accounts p mocks os) {id : Nat} (hid : isManaged id = true)
    (hfree : id ∉ taken os) : (grants os).map (·.asked) = preferred mocks := by
  rw [asked_grants, ha.preferred_eq]
  refine congrArg _ (List.filter_congr fun o ho => ?_)
  cases hr : o.rule? with
  | none => simp [ha.isBuildable_of_none ho hr hid hfree]
  | some r => simp [Mock.isBuildable_of_rule (ha.rule_of_some ho hr).1]

theorem probed (ha : Accounts p mocks os) (hn : (taken os).Nodup) : Probed (grants os) := by
  have hgrant : ∀ g ∈ grants os, ∃ o ∈ os, ∃ r : Rule, g = ⟨o.mock.id.ruleId, r.id⟩ ∧
      ∃ before ⊆ taken os, FirstFree before o.mock.id.ruleId r.id := by
    intro g hg
    obtain ⟨o, ho, hog⟩ := List.mem_filterMap.1 hg
    obtain ⟨r, hr, rfl⟩ := Option.map_eq_some_iff.1 hog
    exact ⟨o, ho, r, rfl, (ha.rule_of_some ho hr).2⟩
  constructor
  · intro g hg
    obtain ⟨o, -, r, rfl, -⟩ := hgrant g hg
    exact MockId.isManaged_ruleId _
  · intro g hg
    obtain ⟨o, -, r, rfl, before, -, hfirst⟩ := hgrant g hg
    exact hfirst.managed
  · rwa [given_grants]
  · intro g hg id hid hlt
    obtain ⟨o, -, r, rfl, before, hsub, hfirst⟩ := hgrant g hg
    rw [given_grants]
    exact hsub (hfirst.first id hid hlt)

end Accounts

/-- The ids in use are known from the preferred ones. -/
theorem mem_ids_iff (mocks : List Mock) {id : Nat} (hid : isManaged id = true) :
    id ∈ (ofMocks mocks).rules.toList.map (·.id) ↔
      ∃ room < lastManagedId, room < demand (preferred mocks) id room := by
  obtain ⟨os, ha⟩ := exists_accounts mocks
  have htaken : (ofMocks mocks).rules.toList.map (·.id) = taken os := congrArg _ ha.rules
  have hp : Probed (grants os) := ha.probed (htaken ▸ nodup_ofMocks mocks)
  rw [htaken, ← given_grants]
  constructor
  · intro hmem
    -- mocks that were left without a rule only add to what was preferred
    obtain ⟨room, hroom, hlt⟩ := hp.exists_demand_of_mem hid hmem
    exact ⟨room, hroom, Nat.lt_of_lt_of_le hlt (ha.asked_sublist.countP_le)⟩
  · rintro ⟨room, -, hlt⟩
    -- were the id free, no mock would have been left without a rule for want of ids
    refine Decidable.not_not.1 fun hfree => ?_
    have hle := hp.demand_le_of_not_mem hid hfree room
    rw [ha.asked_eq hid (given_grants os ▸ hfree)] at hle
    omega

theorem length_rules_le (mocks : List Mock) :
    (ofMocks mocks).rules.toList.length ≤ lastManagedId := by
  have hsub : (ofMocks mocks).rules.toList.map (·.id) ⊆ List.range' 1 lastManagedId := by
    intro id hid
    obtain ⟨r, hr, rfl⟩ := List.mem_map.1 hid
    have hm := isManaged_iff.1 ((sound_ofMocks mocks).managed r hr)
    rw [List.mem_range'_1]
    omega
  simpa using (nodup_ofMocks mocks).length_le_of_subset hsub

/-- There is a rule for each mock that should have one, up to the number of managed ids. -/
theorem length_rules (mocks : List Mock) :
    (ofMocks mocks).rules.toList.length = min (mocks.countP (·.wantsRule)) lastManagedId := by
  obtain ⟨os, ha⟩ := exists_accounts mocks
  have htaken : (ofMocks mocks).rules.toList.map (·.id) = taken os := congrArg _ ha.rules
  have hlength : (ofMocks mocks).rules.toList.length = ((grants os).map (·.asked)).length := by
    have hgiven := congrArg List.length (given_grants os)
    rw [← htaken, List.length_map, List.length_map] at hgiven
    rw [List.length_map, hgiven]
  have hwants : (preferred mocks).length = mocks.countP (·.wantsRule) := by
    rw [preferred, List.length_map, List.countP_eq_length_filter]
  have hbound := length_rules_le mocks
  by_cases hgap : ∃ id, isManaged id = true ∧ id ∉ taken os
  · obtain ⟨id, hid, hfree⟩ := hgap
    rw [ha.asked_eq hid hfree, hwants] at hlength
    omega
  · have hle := ha.asked_sublist.length_le
    rw [← hlength, hwants] at hle
    have hall : lastManagedId ≤ (taken os).length := le_length_of_managed fun id hid =>
      Decidable.not_not.1 fun hfree => hgap ⟨id, hid, hfree⟩
    rw [← htaken, List.length_map] at hall
    omega

/-! ### Preferred ids -/

/-- The plan for a list gives an id to a mock of the list: the rule of the mock comes right after those of
the mocks before it. -/
def Gives (before : List Mock) (m : Mock) (after : List Mock) (id : Nat) : Prop :=
  ∃ r, m.rule id = .ok r ∧
    (ofMocks (before ++ m :: after)).rules[(ofMocks before).rules.size]? = some r

/-- What comes after a mock has no say in its id. -/
theorem gives_iff {before after : List Mock} {m : Mock} (he : m.enabled = true) {id : Nat} :
    Gives before m after id ↔
      freeId? (ofMocks before).used m.id.ruleId = some id ∧ m.isBuildable = true := by
  have hpre := rules_add_prefix before m after
  have hp := MockId.isManaged_ruleId m.id
  obtain ⟨-, hd⟩ | ⟨-, hadd, hf | ⟨id', cause, hc⟩⟩ | ⟨-, free, r, hf, hr, hadd⟩ :=
    add_cases (ofMocks before) m
  · cases he.symm.trans hd
  · -- all managed ids are taken, so there is no rule after those
    have hall := (sound_ofMocks before).length_of_freeId?_eq_none hp hf
    have hbound := length_rules_le (before ++ m :: after)
    rw [Array.length_toList] at hall hbound
    simp [Gives, hf, Array.getElem?_eq_none (Nat.le_trans hbound hall)]
  · have hb := Mock.isBuildable_eq_false hc
    refine iff_of_false ?_ (by simp [hb])
    rintro ⟨r, hr, -⟩
    cases hb.symm.trans (Mock.isBuildable_of_rule hr)
  · rw [hadd, Array.toList_push] at hpre
    obtain ⟨later, hlater⟩ := hpre
    have hnext : (ofMocks (before ++ m :: after)).rules[(ofMocks before).rules.size]? = some r := by
      rw [← Array.getElem?_toList, ← hlater]
      simp
    rw [Gives, hnext, hf]
    constructor
    · rintro ⟨_, hr', ⟨⟩⟩
      rw [← Mock.id_of_rule hr', Mock.id_of_rule hr]
      exact ⟨rfl, Mock.isBuildable_of_rule hr⟩
    · rintro ⟨⟨⟩, -⟩
      exact ⟨r, hr, rfl⟩

/-- Whether the mocks of a list leave an id alone: no run of ids that ends with it is preferred more often
than the run without it has room for. -/
def LeavesFree (mocks : List Mock) (id : Nat) : Prop :=
  ∀ room < lastManagedId, demand (preferred mocks) id room ≤ room

theorem leavesFree_iff (mocks : List Mock) {id : Nat} (hid : isManaged id = true) :
    LeavesFree mocks id ↔ id ∉ (ofMocks mocks).used := by
  rw [(sound_ofMocks mocks).used, mem_ids_iff mocks hid]
  simp [LeavesFree]

theorem gives_preferred_iff {before after : List Mock} {m : Mock} (he : m.enabled = true)
    (hb : m.isBuildable = true) :
    Gives before m after m.id.ruleId ↔ LeavesFree before m.id.ruleId := by
  have hp := MockId.isManaged_ruleId m.id
  rw [gives_iff he, leavesFree_iff before hp]
  constructor
  · rintro ⟨hf, -⟩
    exact (freeId?_eq_some hp hf).2
  · intro hfree
    refine ⟨?_, hb⟩
    cases hf : freeId? (ofMocks before).used m.id.ruleId with
    | none => exact absurd (freeId?_eq_none hp hp hf) hfree
    | some id =>
      have hfirst := firstFree_of_freeId? (sound_ofMocks before).used hp hf
      rw [hfirst.eq_preferred hp fun hmem => hfree (((sound_ofMocks before).used _).2 hmem)]

/-- While the mocks before a mock leave its preferred id free, it gets that id and no other. -/
theorem gives_iff_of_leavesFree {before after : List Mock} {m : Mock} (he : m.enabled = true)
    (hb : m.isBuildable = true) (h : LeavesFree before m.id.ruleId) {id : Nat} :
    Gives before m after id ↔ id = m.id.ruleId := by
  have hgives : Gives before m after m.id.ruleId := (gives_preferred_iff he hb).2 h
  refine ⟨fun hid => ?_, fun heq => heq ▸ hgives⟩
  have hfree := ((gives_iff he).1 hgives).1
  rw [((gives_iff he).1 hid).1] at hfree
  exact Option.some.inj hfree

/-- Mocks that prefer different ids leave each other id free. -/
theorem leavesFree_of_nodup {mocks : List Mock} {id : Nat} (hid : isManaged id = true)
    (hn : (preferred mocks).Nodup) (hnot : id ∉ preferred mocks) : LeavesFree mocks id := by
  refine fun room _ => demand_le_of_nodup hn (fun a ha => ?_) hid hnot room
  obtain ⟨m, -, rfl⟩ := List.mem_map.1 ha
  exact MockId.isManaged_ruleId m.id

/-- An enabled mock for which there can be a rule gets its preferred id exactly if the mocks before it
leave that id free. So it keeps its id whichever mocks come, go, or are switched on or off, as long as the
mocks before it leave its preferred id free. -/
theorem stable_of_leavesFree {m : Mock} (he : m.enabled = true) (hb : m.isBuildable = true)
    (before after before' after' : List Mock) :
    (Gives before m after m.id.ruleId ↔ LeavesFree before m.id.ruleId) ∧
    (LeavesFree before m.id.ruleId → LeavesFree before' m.id.ruleId →
      ∀ id, Gives before m after id ↔ Gives before' m after' id) := by
  refine ⟨gives_preferred_iff he hb, fun h h' id => ?_⟩
  rw [gives_iff_of_leavesFree he hb h, gives_iff_of_leavesFree he hb h']

theorem stable_numbered :
    (Mock.numbered 300).enabled = true ∧ (Mock.numbered 300).isBuildable = true ∧
      LeavesFree [.numbered 65535, .numbered 65536] 300 ∧
      Gives [.numbered 65535, .numbered 65536] (.numbered 300) [] 300 ∧
      ∀ id, Gives [.numbered 65535, .numbered 65536] (.numbered 300) [] id ↔
        Gives [] (.numbered 300) [.numbered 5] id := by
  have hpreferred : preferred [.numbered 65535, .numbered 65536] = [1, 1] := by decide
  have hsteps : stepsTo 1 300 = 299 := rfl
  have hfree : LeavesFree [.numbered 65535, .numbered 65536] 300 := by
    intro room _
    rw [hpreferred, demand, List.countP_cons, List.countP_cons, hsteps]
    by_cases hroom : 299 ≤ room
    · simp [hroom]
      omega
    · simp [hroom]
  have hnil : LeavesFree [] 300 := fun room _ => Nat.zero_le room
  have hb := Mock.isBuildable_numbered 300
  have h := stable_of_leavesFree rfl hb [.numbered 65535, .numbered 65536] [] [] [.numbered 5]
  exact ⟨rfl, hb, hfree, h.1.2 hfree, h.2 hfree hnil⟩

/-- A mock may lose a preferred id that no other mock prefers: of the mocks 65535 and 65536, which both
prefer the id 1, the second one is moved to the id 2, which the mock 65537 prefers. -/
theorem not_gives_numbered :
    let before : List Mock := [.numbered 65535, .numbered 65536]
    let m : Mock := .numbered 65537
    m.enabled = true ∧ m.isBuildable = true ∧ (∀ other ∈ before, other.id.ruleId ≠ m.id.ruleId) ∧
      ¬Gives before m [] m.id.ruleId := by
  refine ⟨rfl, Mock.isBuildable_numbered 65537, by decide, ?_⟩
  rw [gives_preferred_iff rfl (Mock.isBuildable_numbered 65537)]
  intro hfree
  exact absurd (hfree 1 (by decide)) (by decide)

end Plan
end MockRedirect
