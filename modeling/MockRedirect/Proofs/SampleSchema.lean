import MockRedirect.Proofs.Cut
import MockRedirect.Schema
/-! The schema that is derived from a template, against the tree that the template is parsed to. Both come
from the text without comments and meta fields, but only of the tree are the meta members pruned that are
left in this text. -/
namespace MockRedirect
open Text

/-! ### Schemas -/

namespace Schema

mutual
/-- The schema without the properties whose key satisfies `drop`, at every depth. -/
def without (drop : String → Bool) : Schema → Schema
  | .closed ps => .closed (propertiesWithout drop ps)
  | .array items => .array (items.without drop)
  | .scalar t => .scalar t
  | .any => .any
  | .openObject => .openObject
def propertiesWithout (drop : String → Bool) : List (String × Schema) → List (String × Schema)
  | [] => []
  | (k, s) :: ps =>
    if drop k then propertiesWithout drop ps else (k, s.without drop) :: propertiesWithout drop ps
end

/-- A key is required of some object that the schema describes, at whatever depth. -/
inductive Requires (key : String) : Schema → Prop
  | here {ps : List (String × Schema)} {s : Schema} (h : (key, s) ∈ ps) : Requires key (.closed ps)
  | inside {ps : List (String × Schema)} {k : String} {s : Schema} (h : (k, s) ∈ ps)
    (hs : Requires key s) : Requires key (.closed ps)
  | items {s : Schema} (hs : Requires key s) : Requires key (.array s)

variable {drop : String → Bool} {key : String}

mutual
/-- What is pruned of a sample its schema does not mention. -/
theorem of_prune (drop : String → Bool) : ∀ v : Json, of (v.prune drop) = (of v).without drop
  | .obj ms => congrArg closed (ofMembers_prune drop ms)
  | .arr xs => congrArg array (ofFirst_prune drop xs)
  | .str _ | .int _ | .float _ | .bool _ | .null => rfl
theorem ofFirst_prune (drop : String → Bool) : ∀ xs : List Json,
    ofFirst (Json.pruneItems drop xs) = (ofFirst xs).without drop
  | [] => rfl
  | v :: _ => of_prune drop v
theorem ofMembers_prune (drop : String → Bool) : ∀ ms : Members,
    ofMembers (Json.pruneMembers drop ms) = propertiesWithout drop (ofMembers ms)
  | [] => rfl
  | (k, v) :: ms => by
    have ih := ofMembers_prune drop ms
    have hv := of_prune drop v
    by_cases hk : k = "" <;> by_cases hdrop : drop k = true <;>
      simp_all [Json.pruneMembers, ofMembers, propertiesWithout]
end

mutual
theorem without_eq_self : ∀ s : Schema, (∀ key, s.Requires key → drop key = false) → s.without drop = s
  | .closed ps, h => congrArg closed <| propertiesWithout_eq_self ps fun p hp =>
    ⟨h p.1 (.here (s := p.2) hp), fun key hkey => h key (.inside (k := p.1) hp hkey)⟩
  | .array items, h => congrArg array (without_eq_self items fun key hkey => h key (.items hkey))
  | .scalar _, _ | .any, _ | .openObject, _ => rfl
theorem propertiesWithout_eq_self : ∀ ps : List (String × Schema),
    (∀ p ∈ ps, drop p.1 = false ∧ ∀ key, p.2.Requires key → drop key = false) →
      propertiesWithout drop ps = ps
  | [], _ => rfl
  | (k, s) :: ps, h => by
    obtain ⟨⟨hk, hs⟩, hps⟩ := List.forall_mem_cons.1 h
    rw [propertiesWithout, if_neg (by simp [hk]), without_eq_self s hs, propertiesWithout_eq_self ps hps]
end

theorem requires_closed {ps : List (String × Schema)} :
    (closed ps).Requires key ↔ ∃ p ∈ ps, p.1 = key ∨ p.2.Requires key := by
  constructor
  · rintro (h | ⟨h, hs⟩)
    · exact ⟨_, h, .inl rfl⟩
    · exact ⟨_, h, .inr hs⟩
  · rintro ⟨⟨k, s⟩, h, rfl | hs⟩
    · exact .here h
    · exact .inside h hs

mutual
theorem kept_of_requires_without : ∀ s : Schema, (s.without drop).Requires key → drop key = false
  | .closed ps, h => by
    rw [without, requires_closed] at h
    exact kept_of_requires_properties ps h
  | .array items, h => by
    cases h with
    | items h => exact kept_of_requires_without items h
  | .scalar _, h | .any, h | .openObject, h => nomatch h
theorem kept_of_requires_properties : ∀ ps : List (String × Schema),
    (∃ p ∈ propertiesWithout drop ps, p.1 = key ∨ p.2.Requires key) → drop key = false
  | [], ⟨_, hp, _⟩ => nomatch hp
  | (k, s) :: ps, ⟨p, hp, h⟩ => by
    rw [propertiesWithout] at hp
    split at hp
    · exact kept_of_requires_properties ps ⟨p, hp, h⟩
    · next hk =>
      obtain rfl | hp := List.mem_cons.1 hp
      · obtain rfl | h := h
        · simpa using hk
        · exact kept_of_requires_without s h
      · exact kept_of_requires_properties ps ⟨p, hp, h⟩
end

/-- Nothing is left out of a schema exactly if it requires nothing that is to be left out. -/
theorem without_eq_self_iff {s : Schema} :
    s.without drop = s ↔ ∀ key, s.Requires key → drop key = false :=
  ⟨fun h key hkey => kept_of_requires_without s (by rwa [h]), without_eq_self s⟩

end Schema

/-! ### Documents -/

namespace Document

mutual
/-- The keys at every depth as they are written. -/
def keyTexts : Document → List (List Char)
  | .word _ => []
  | .text _ => []
  | .list ds => itemKeyTexts ds
  | .record ms => memberKeyTexts ms
def itemKeyTexts : List Document → List (List Char)
  | [] => []
  | d :: ds => d.keyTexts ++ itemKeyTexts ds
def memberKeyTexts : Entries → List (List Char)
  | [] => []
  | (k, d) :: ms => k :: (d.keyTexts ++ memberKeyTexts ms)
end

variable {drop : List Char → Bool} {noise : String → Bool}

/-- Where noise is written in such a way that it is dropped. -/
def Shows (drop : List Char → Bool) (noise : String → Bool) (ks : List (List Char)) : Prop :=
  ∀ k ∈ ks, ∀ key, stringValue? k = some key → noise key = true → drop k = true

theorem shows_append {ks ls : List (List Char)} :
    Shows drop noise (ks ++ ls) ↔ Shows drop noise ks ∧ Shows drop noise ls := List.forall_mem_append

theorem shows_cons {k : List Char} {ks : List (List Char)} : Shows drop noise (k :: ks) ↔
    (∀ key, stringValue? k = some key → noise key = true → drop k = true) ∧ Shows drop noise ks :=
  List.forall_mem_cons

mutual
/-- No noise is left in the tree of a document without the members that are dropped. -/
theorem prune_of_shows : ∀ (d : Document) (w : Json), Shows drop noise d.keyTexts →
    (d.without drop).value? = some w → w.prune noise = w
  | .word _, _, _, hw => Json.prune_of_isScalar (Json.short_of_wordValue hw).1 noise
  | .text b, w, _, hw => by
    obtain ⟨s, -, rfl⟩ := value?_text.1 hw
    rfl
  | .list ds, w, h, hw => by
    obtain ⟨ws, hws, rfl⟩ := value?_list.1 hw
    exact congrArg Json.arr (pruneItems_of_shows ds ws h hws)
  | .record es, w, h, hw => by
    obtain ⟨ms, hms, rfl⟩ := value?_record.1 hw
    exact congrArg Json.obj (pruneMembers_of_shows es ms h hms)
theorem pruneItems_of_shows : ∀ (ds : List Document) (ws : List Json), Shows drop noise (itemKeyTexts ds) →
    itemValues? (itemsWithout drop ds) = some ws → Json.pruneItems noise ws = ws
  | [], ws, _, hws => by
    cases hws
    rfl
  | d :: ds, ws, h, hws => by
    obtain ⟨hd, hds⟩ := shows_append.1 h
    obtain ⟨x, xs, hx, hxs, rfl⟩ := itemValues?_cons.1 hws
    rw [Json.pruneItems, prune_of_shows d x hd hx, pruneItems_of_shows ds xs hds hxs]
theorem pruneMembers_of_shows : ∀ (es : Entries) (ms : Members), Shows drop noise (memberKeyTexts es) →
    memberValues? (membersWithout drop es) = some ms → Json.pruneMembers noise ms = ms
  | [], ms, _, hms => by
    cases hms
    rfl
  | (k, d) :: es, ms, h, hms => by
    obtain ⟨hk, h⟩ := shows_cons.1 h
    obtain ⟨hd, hes⟩ := shows_append.1 h
    rw [membersWithout] at hms
    split at hms
    · exact pruneMembers_of_shows es ms hes hms
    · next hdrop =>
      obtain ⟨key, x, xs, hkey, hx, hxs, rfl⟩ := memberValues?_cons.1 hms
      have hnoise : ¬noise key = true := fun hn => hdrop (hk key hkey hn)
      rw [Json.pruneMembers, if_neg hnoise, prune_of_shows d x hd hx, pruneMembers_of_shows es xs hes hxs]
end

end Document

/-! ### Templates -/

namespace Template
open Document Schema

variable {t : List Char} {tree : Json}

/-- Whether a property belongs to the template and not to the body. -/
def isMeta (key : String) : Bool := isMetaKey key.toList

/-- Of a template that is parsed, the derived schema describes the tree and, besides, the meta members that
are left in the text from which both come. -/
theorem of_parse (h : parse t = .ok tree) : Schema.of tree = (derive (sampleText t)).without isMeta := by
  obtain ⟨-, v, hv, rfl⟩ := parse_eq_ok_iff.1 h
  rw [derive, hv]
  exact of_prune isMeta v

/-- In an annotated document all meta members are cut out of the text, if each is written with its mark. -/
theorem prune_parse_sampleText {d : Document} (ht : annotated.Whole t d) (hd : d.value?.isSome)
    (hshows : Shows isMetaKey isMeta d.keyTexts) {v : Json} (hv : Json.parse (sampleText t) = .ok v) :
    v.prune isMeta = v := by
  obtain ⟨u, hu⟩ := Option.isSome_iff_exists.1 hd
  have hdrop (k : List Char) (key : String) (hk : isMetaKey k = true) (hkey : stringValue? k = some key) :
      isMeta key = true := isMetaKey_of_stringValue? hk hkey
  obtain ⟨w, hw, -⟩ := value?_without hdrop d u hu
  obtain ⟨-, rfl⟩ := (Json.parse_of_whole (sampleText_annotated ht) hw).1 hv
  rw [Json.prune_merged, prune_of_shows d w hshows hw]

/-- The derived schema, without the meta properties that it requires, is the schema of the tree that a
template is parsed to. So the two are the same exactly if the derived one requires no meta key, and this is
so for every annotated document in which meta keys are written with their mark, not escaped. -/
theorem derive_of_parse (h : parse t = .ok tree) :
    Schema.of tree = (derive (sampleText t)).without isMeta ∧
      (derive (sampleText t) = Schema.of tree ↔
        ∀ key, (derive (sampleText t)).Requires key → isMeta key = false) ∧
      ∀ d, annotated.Whole t d → d.value?.isSome → Shows isMetaKey isMeta d.keyTexts →
        derive (sampleText t) = Schema.of tree := by
  have hschema := of_parse h
  refine ⟨hschema, ?_, fun d ht hd hshows => ?_⟩
  · rw [hschema, eq_comm]
    exact without_eq_self_iff
  · obtain ⟨-, v, hv, rfl⟩ := parse_eq_ok_iff.1 h
    have hprune : v.prune isMeta = v := prune_parse_sampleText ht hd hshows hv
    rw [derive, hv]
    exact congrArg Schema.of hprune.symm

/-- An object with one member, whose value is the number one. -/
def oneMember (k : List Char) : Document := .record [(k, .word ['1'])]

theorem whole_oneMember {st : Style} (hg : st.gap []) {k : List Char} (hk : IsBody k) :
    st.Whole ('\x7b' :: '"' :: (k ++ "\":1\x7d".toList)) (oneMember k) := by
  have hone : IsWord ['1'] := ⟨by decide, forall_mem_of_all (by decide)⟩
  exact ⟨[], _, [], (List.append_nil _).symm, hg, hg,
    .record hg (.member hk hg hg (.word hone) hg .lastMember)⟩

theorem parse_oneMember {k : List Char} (hk : IsBody k) {key : String} (hkey : stringValue? k = some key) :
    Json.parse ('\x7b' :: '"' :: (k ++ "\":1\x7d".toList)) = .ok (.obj [(key, .int 1)]) := by
  have hvalue : (oneMember k).value? = some (.obj [(key, .int 1)]) :=
    value?_record.2 ⟨_, memberValues?_cons.2 ⟨key, .int 1, [], hkey, rfl, rfl, rfl⟩, rfl⟩
  have hdepth : 1 ≤ Json.depthLimit := by decide
  exact (Json.parse_of_whole (whole_oneMember Json.isSpace_nil hk) hvalue).2 ⟨hdepth, rfl⟩

theorem derive_of_parse_bare :
    parse "\x7b\"@b\":,\"a\":1\x7d".toList = .ok (.obj [("a", .int 1)]) ∧
      derive (sampleText "\x7b\"@b\":,\"a\":1\x7d".toList) = Schema.of (.obj [("a", .int 1)]) := by
  have hgap : annotated.gap [] := IsGap.nil
  have ha : IsBody ['a'] := .char (by decide) (by decide) .nil
  have hb : IsBody ['@', 'b'] := .char (by decide) (by decide) (.char (by decide) (by decide) .nil)
  have hone : IsWord ['1'] := ⟨by decide, forall_mem_of_all (by decide)⟩
  have hkey : stringValue? ['a'] = some "a" := by rfl
  have htext : sampleText "\x7b\"@b\":,\"a\":1\x7d".toList = "\x7b\"a\":1\x7d".toList := by decide
  have hread : Json.parse (sampleText "\x7b\"@b\":,\"a\":1\x7d".toList) = .ok (.obj [("a", .int 1)]) := by
    rw [htext]
    exact parse_oneMember ha hkey
  have hparse : parse "\x7b\"@b\":,\"a\":1\x7d".toList = .ok (.obj [("a", .int 1)]) :=
    parse_eq_ok_iff.2 ⟨by decide, _, hread, rfl⟩
  have ht : annotated.Whole "\x7b\"@b\":,\"a\":1\x7d".toList (oneMember ['a']) := by
    unfold oneMember
    exact ⟨[], _, [], rfl, hgap, hgap, .record hgap (.bare hb rfl hgap hgap
      (.nextMember hgap (.member ha hgap hgap (.word hone) hgap .lastMember)))⟩
  have hvalue : (oneMember ['a']).value?.isSome = true := by rfl
  have hshows : Shows isMetaKey isMeta (oneMember ['a']).keyTexts := by
    intro k hk key hk' hmeta
    obtain rfl := List.mem_singleton.1 hk
    obtain rfl : key = "a" := Option.some.inj (hk'.symm.trans hkey)
    exact absurd hmeta (by decide)
  exact ⟨hparse, (derive_of_parse hparse).2.2 _ ht hvalue hshows⟩

/-- A meta key whose mark is escaped is left in the text, and only of the tree it is pruned. -/
theorem derive_requires_escaped :
    parse "\x7b\"\\u0040a\":1\x7d".toList = .ok (.obj []) ∧
      derive (sampleText "\x7b\"\\u0040a\":1\x7d".toList) = .closed [("@a", .scalar .number)] ∧
      isMeta "@a" = true ∧ Schema.of (.obj []) ≠ .closed [("@a", .scalar .number)] := by
  have hbody : IsBody "\\u0040a".toList := .escape 'u' (.char (by decide) (by decide) (.char (by decide)
    (by decide) (.char (by decide) (by decide) (.char (by decide) (by decide) (.char (by decide)
    (by decide) .nil)))))
  have hkey : stringValue? "\\u0040a".toList = some "@a" := by rfl
  have htext : sampleText "\x7b\"\\u0040a\":1\x7d".toList = "\x7b\"\\u0040a\":1\x7d".toList := by decide
  have hread : Json.parse (sampleText "\x7b\"\\u0040a\":1\x7d".toList) = .ok (.obj [("@a", .int 1)]) := by
    rw [htext]
    exact parse_oneMember hbody hkey
  refine ⟨parse_eq_ok_iff.2 ⟨by decide, _, hread, by rfl⟩, ?_, by decide, ?_⟩
  · rw [derive, hread]
    rfl
  · intro h
    cases h

end Template
end MockRedirect
