import MockRedirect.Proofs.ShapeReader
import MockRedirect.Rule.Basic
/-! Rules are read back from the text they are written as, and whatever text a rule is read from, its
numbers have 32 bits. -/
namespace MockRedirect
open Json Document

/-! ### Decoders -/

namespace Decoder

variable {α : Type} {D : Decoder α} {v : Json} {a : α}

/-- The record is read from every text that spells the tree. -/
def Recovers (D : Decoder α) (v : Json) (a : α) : Prop :=
  ∃ w, Brings D.shape.read v w ∧ D.get? w = some a

theorem Recovers.list {vs : List Json} {as : List α} (h : List.Forall₂ D.Recovers vs as) :
    D.list.Recovers (.arr vs) as := by
  suffices ∃ ws, List.Forall₂ (Brings D.shape.read) vs ws ∧ ws.mapM D.get? = some as by
    obtain ⟨ws, hws, has⟩ := this
    exact ⟨.arr ws, Shape.brings_list hws, has⟩
  induction h with
  | nil => exact ⟨[], .nil, rfl⟩
  | cons hv _ ih =>
    obtain ⟨w, hw, ha⟩ := hv
    obtain ⟨ws, hws, has⟩ := ih
    exact ⟨w :: ws, .cons hw hws, by simp [ha, has]⟩

/-- A record is read from the indented text of its tree. -/
theorem Recovers.parse {keys : List String → Prop} (h : D.Recovers v a) (hv : v.Every keys Lasting)
    (hdepth : v.depth ≤ depthLimit) : D.parse (v.pretty 0 ++ ['\n']) = .ok a := by
  obtain ⟨w, hread, hget⟩ := h
  obtain ⟨e, hs, he⟩ := writes_pretty hv 0
  have hdocument := hread e (v.pretty 0) [] ['\n'] depthLimit hs he hdepth isSpace_nil
    (delimited_cons rfl [])
  rw [List.nil_append] at hdocument
  have hskip : skipSpace ['\n'] = [] := rfl
  rw [Decoder.parse, Shape.readDocument, readDocument, hdocument]
  simp only [hskip, bind, Except.bind, hget]

/-- What is known of whatever the reader yields is known of the tree of a record that is read. -/
theorem exists_of_parse {P : Json → Prop} {text : List Char} (hread : Shape.Yields D.shape.read P)
    (h : D.parse text = .ok a) : ∃ w, P w ∧ D.get? w = some a := by
  obtain ⟨w, hw, h⟩ := bind_eq_ok.1 h
  refine ⟨w, ?_, ?_⟩
  · unfold Shape.readDocument readDocument at hw
    split at hw
    · contradiction
    · next v rest hv =>
      split at hw
      · cases hw
        exact hread _ _ _ _ hv
      · contradiction
  · split at h
    · next b hb =>
      cases h
      exact hb
    · contradiction

/-- Each record of a list comes from one of its elements. -/
theorem exists_of_get? {vs : List Json} {as : List α} (h : D.list.get? (.arr vs) = some as) :
    ∀ a ∈ as, ∃ v ∈ vs, D.get? v = some a := by
  intro a ha
  have hmem : some a ∈ vs.map D.get? := mapM_eq_some.1 h ▸ List.mem_map_of_mem ha
  exact List.mem_map.1 hmem

end Decoder

/-! ### Rules -/

theorem RuleAction.recovers (a : RuleAction) : decoder.Recovers a.toJson a := by
  cases a with
  | redirect url =>
    exact ⟨_, Shape.brings_tagged (.cons (Shape.turns_tag (by decide) _)
      (.cons (Shape.turns_other (by decide) _ _ _) .nil)) rfl, rfl⟩
  | block => exact ⟨_, Shape.brings_tagged (.cons (Shape.turns_tag (by decide) _) .nil) rfl, rfl⟩

/-- A list of known words is read as it is. -/
theorem brings_words {known ns : List String} (h : ∀ n ∈ ns, n ∈ known) :
    Brings (Shape.read (.list (.word known))) (.arr (ns.map .str)) (.arr (ns.map .str)) := by
  refine Shape.brings_list (List.forall₂_same.2 fun v hv => ?_)
  obtain ⟨n, hn, rfl⟩ := List.mem_map.1 hv
  exact Shape.brings_word (h n hn)

theorem Decoder.get?_words {α : Type} {D : Decoder α} {name : α → String}
    (h : ∀ a, D.get? (.str (name a)) = some a) (as : List α) :
    D.list.get? (.arr ((as.map name).map .str)) = some as := by
  suffices ((as.map name).map Json.str).mapM D.get? = some as from this
  rw [mapM_eq_some, List.map_map, List.map_map]
  exact List.map_congr_left fun a _ => h a

namespace RuleAction

theorem every_toJson (a : RuleAction) : a.toJson.Every (fun _ => True) Lasting := by
  have htext (s : String) : (Json.str s).Every (fun _ => True) Lasting := .scalar trivial (lasting_str s)
  cases a with
  | redirect url => simp [toJson, every_obj, htext]
  | block => simp [toJson, every_obj, htext]

theorem depth_toJson_le (a : RuleAction) : a.toJson.depth ≤ 2 := by
  cases a <;> simp [toJson, depth, depthMembers]

end RuleAction

namespace Condition

/-- The members of a condition once it is read: no list is left out. -/
def fullMembers (c : Condition) : Members :=
  [("urlFilter", .str c.urlFilter),
    ("resourceTypes", .arr ((c.resourceTypes.map ResourceType.name).map .str)),
    ("requestMethods", .arr ((c.requestMethods.map RequestMethod.name).map .str))]

theorem get?_fullMembers (c : Condition) : decoder.get? (.obj c.fullMembers) = some c := by
  have htypes :=
    Decoder.get?_words ResourceType.ofName?_name (D := ResourceType.decoder) c.resourceTypes
  have hmethods :=
    Decoder.get?_words RequestMethod.ofName?_name (D := RequestMethod.decoder) c.requestMethods
  simp only [decoder, fullMembers, htypes, hmethods]
  rfl

/-- Empty lists are left out where a condition is written, and put in where it is read. -/
theorem exists_toJson_eq (c : Condition) : ∃ ms, c.toJson = .obj ms ∧ ms.Sublist c.fullMembers ∧
    Field.complete decoder.shape.fieldReaders ms = .ok c.fullMembers := by
  refine ⟨_, rfl, ?_, ?_⟩
  · by_cases htypes : c.resourceTypes = [] <;> by_cases hmethods : c.requestMethods = [] <;>
      simp [htypes, hmethods, fullMembers]
  · by_cases htypes : c.resourceTypes = [] <;> by_cases hmethods : c.requestMethods = [] <;>
      simp [htypes, hmethods, fullMembers] <;> rfl

theorem recovers (c : Condition) : decoder.Recovers c.toJson c := by
  have htypes : ∀ n ∈ c.resourceTypes.map ResourceType.name,
      n ∈ ResourceType.all.map ResourceType.name := by
    intro n hn
    obtain ⟨t, -, rfl⟩ := List.mem_map.1 hn
    exact List.mem_map_of_mem (by cases t <;> decide)
  have hmethods : ∀ n ∈ c.requestMethods.map RequestMethod.name,
      n ∈ RequestMethod.all.map RequestMethod.name := by
    intro n hn
    obtain ⟨m, -, rfl⟩ := List.mem_map.1 hn
    exact List.mem_map_of_mem (by cases m <;> decide)
  have hnamed : ∀ m ∈ c.fullMembers, Shape.Named decoder.shape.fieldReaders m m := by
    simp only [fullMembers, List.forall_mem_cons]
    exact ⟨⟨rfl, _, rfl, rfl, Shape.brings_text _⟩, ⟨rfl, _, rfl, rfl, brings_words htypes⟩,
      ⟨rfl, _, rfl, rfl, brings_words hmethods⟩, by simp⟩
  have hkeys : (Members.keys c.fullMembers).Nodup := by
    simp [Members.keys, fullMembers]
  obtain ⟨ms, hms, hsub, hcomplete⟩ := c.exists_toJson_eq
  rw [hms]
  refine ⟨.obj c.fullMembers, ?_, c.get?_fullMembers⟩
  exact Shape.brings_named (List.forall₂_same.2 fun m hm => hnamed m (hsub.subset hm))
    (hkeys.sublist (hsub.map _)) hcomplete

theorem every_toJson (c : Condition) : c.toJson.Every (fun _ => True) Lasting := by
  have htext (s : String) : (Json.str s).Every (fun _ => True) Lasting := .scalar trivial (lasting_str s)
  obtain ⟨ms, hms, hsub, -⟩ := c.exists_toJson_eq
  rw [hms, every_obj]
  refine ⟨trivial, fun m hm => ?_⟩
  have hfull : ∀ m ∈ c.fullMembers, m.2.Every (fun _ => True) Lasting := by
    simp [fullMembers, every_arr, htext]
  exact hfull m (hsub.subset hm)

theorem depth_toJson_le (c : Condition) : c.toJson.depth ≤ 2 := by
  obtain ⟨ms, hms, hsub, -⟩ := c.exists_toJson_eq
  rw [hms, depth_obj_le]
  have hwords (ns : List String) : (Json.arr (ns.map .str)).depth ≤ 0 + 1 :=
    depth_arr_le.2 (by simp [depth])
  have hfull : ∀ m ∈ c.fullMembers, m.2.depth ≤ 1 := by
    simp only [fullMembers, List.forall_mem_cons]
    exact ⟨Nat.zero_le 1, hwords _, hwords _, by simp⟩
  exact fun m hm => hfull m (hsub.subset hm)

end Condition

namespace Rule

/-- Both numbers of a rule have 32 bits. -/
structure InWords (r : Rule) : Prop where
  id : r.id < Nat.pow 2 32
  priority : r.priority < Nat.pow 2 32

theorem recovers {r : Rule} (h : r.InWords) : decoder.Recovers r.toJson r := by
  obtain ⟨hid, hpriority⟩ := h
  have hword {n : Nat} (hn : n < Nat.pow 2 32) : Brings (Shape.read word32) (.int n) (.int n) :=
    Shape.brings_integer (by omega) (by omega)
  obtain ⟨action, haction, hgetAction⟩ := r.action.recovers
  obtain ⟨condition, hcondition, hgetCondition⟩ := r.condition.recovers
  have hnamed : List.Forall₂ (Shape.Named decoder.shape.fieldReaders)
      [("id", .int r.id), ("priority", .int r.priority), ("action", r.action.toJson),
        ("condition", r.condition.toJson)]
      [("id", .int r.id), ("priority", .int r.priority), ("action", action), ("condition", condition)] :=
    .cons ⟨rfl, _, rfl, rfl, hword hid⟩ (.cons ⟨rfl, _, rfl, rfl, hword hpriority⟩
      (.cons ⟨rfl, _, rfl, rfl, haction⟩ (.cons ⟨rfl, _, rfl, rfl, hcondition⟩ .nil)))
  have hkeys : ["id", "priority", "action", "condition"].Nodup := by decide
  have hget : decoder.get? (.obj [("id", .int r.id), ("priority", .int r.priority), ("action", action),
      ("condition", condition)]) = some r := by
    simp only [decoder, hgetAction, hgetCondition]
    rfl
  exact ⟨_, Shape.brings_named hnamed hkeys rfl, hget⟩

theorem every_toJson {r : Rule} (h : r.InWords) : r.toJson.Every (fun _ => True) Lasting := by
  have hword {n : Nat} (hn : n < Nat.pow 2 32) : (Json.int n).Every (fun _ => True) Lasting := by
    have hpow : Nat.pow 2 32 < Nat.pow 2 64 := by decide
    exact .scalar trivial (lasting_int (by omega) (by omega))
  have haction := r.action.every_toJson
  have hcondition := r.condition.every_toJson
  simp [toJson, every_obj, hword h.id, hword h.priority, haction, hcondition]

theorem depth_toJson_le (r : Rule) : r.toJson.depth ≤ 3 := by
  rw [toJson, depth_obj_le]
  simp [r.action.depth_toJson_le, r.condition.depth_toJson_le, depth]

/-- A number of 32 bits, as it is read. -/
def IsWord32 (v : Json) : Prop := ∃ n : Int, 0 ≤ n ∧ n ≤ (Nat.pow 2 32 : Int) - 1 ∧ v = .int n

/-- What is known of the member under a key of a rule that is read. -/
def FitsKey (key : String) (v : Json) : Prop := key ∈ ["id", "priority"] → IsWord32 v

/-- The id and the priority that are read have 32 bits, also where the priority is missing. -/
theorem yields_words : Shape.Yields decoder.shape.read fun v =>
    ∃ ms, v = .obj ms ∧
      List.Forall₂ (fun f m => m.1 = f.name ∧ FitsKey f.name m.2) decoder.shape.fieldReaders ms := by
  have hword : Shape.Yields (Shape.read word32) IsWord32 := Shape.yields_integer "u32" 0 _
  have hother {reader : ShapeReader} {key : String} (hkey : key ∉ ["id", "priority"]) :
      Shape.Yields reader (FitsKey key) := fun _ _ _ _ _ hmem => absurd hmem hkey
  refine Shape.yields_record "struct Rule" (P := FitsKey) ?_ ?_
  · simp only [Shape.readers, List.forall_mem_cons]
    exact ⟨fun d s v rest h _ => hword d s v rest h, fun d s v rest h _ => hword d s v rest h,
      hother (by decide), hother (by decide), by simp⟩
  · simp only [Shape.readers, List.forall_mem_cons]
    refine ⟨fun v h => ?_, fun v h _ => ?_, fun v h => ?_, fun v h => ?_, by simp⟩
    · contradiction
    · cases h
      exact ⟨defaultPriority, by decide, by decide, rfl⟩
    · contradiction
    · contradiction

theorem inWords_of_get? {ms : Members} {r : Rule}
    (h : List.Forall₂ (fun f m => m.1 = f.name ∧ FitsKey f.name m.2) decoder.shape.fieldReaders ms)
    (hget : decoder.get? (.obj ms) = some r) : r.InWords := by
  cases h with
  | @cons _ m _ _ hid h =>
  obtain ⟨k₁, v₁⟩ := m
  cases h with
  | @cons _ m _ _ hpriority h =>
  obtain ⟨k₂, v₂⟩ := m
  cases h with
  | cons _ h =>
  cases h with
  | cons _ h =>
  cases h
  obtain ⟨id, hid0, hid, rfl : v₁ = _⟩ := hid.2 (by decide)
  obtain ⟨priority, hpriority0, hpriority, rfl : v₂ = _⟩ := hpriority.2 (by decide)
  simp only [decoder, Option.bind_eq_bind, Option.bind_eq_some_iff] at hget
  obtain ⟨action, -, condition, -, hget⟩ := hget
  cases hget
  have hidWord : id.toNat < Nat.pow 2 32 := by omega
  have hpriorityWord : priority.toNat < Nat.pow 2 32 := by omega
  exact ⟨hidWord, hpriorityWord⟩

theorem inWords_of_parse {text : List Char} {rules : List Rule} (h : decoder.list.parse text = .ok rules) :
    ∀ r ∈ rules, r.InWords := by
  obtain ⟨_, ⟨vs, rfl, hvs⟩, hget⟩ := Decoder.exists_of_parse (Shape.yields_list yields_words) h
  intro r hr
  obtain ⟨v, hv, hget⟩ : ∃ v ∈ vs, decoder.get? v = some r := Decoder.exists_of_get? hget r hr
  obtain ⟨ms, rfl, hms⟩ := hvs v hv
  exact inWords_of_get? hms hget

end Rule

end MockRedirect
