import MockRedirect.Proofs.VerbChange
/-! The parts of a query when the verb in it is changed. The parts that carry a verb carry the new one, or it
is added at the end; all else stays as it was typed, so that of several changes the last one counts. -/
namespace MockRedirect.Endpoint
open Text

/-- The parts of the query of a text as it is typed. Empty ones do not count. -/
def typedParts (s : List Char) : List (List Char) :=
  (split '&' ((typedQuery? s).getD [])).filter (· ≠ [])

/-- What becomes of one part when the verb is changed. -/
inductive Reverbed (v : Verb) : List Char → List Char → Prop
  | verb {p : List Char} (h : isVerbPart p = true) : Reverbed v p (Verb.queryOf v.text.toList)
  | other {p : List Char} (h : isVerbPart p = false) : Reverbed v p p

/-- A part, with the verb in it changed if it carries one. -/
def reverbed (v : Verb) (p : List Char) : List Char :=
  if isVerbPart p then Verb.queryOf v.text.toList else p

/-- The parts with the verb changed, or added if there was none. -/
def reverb (v : Verb) (ps : List (List Char)) : List (List Char) :=
  ps.map (reverbed v) ++ if ps.any isVerbPart then [] else [Verb.queryOf v.text.toList]

variable {v w : Verb} {p : List Char} {ps : List (List Char)} {s : List Char}

/-! ### Single parts -/

@[simp] theorem isVerbPart_queryOf (verb : List Char) : isVerbPart (Verb.queryOf verb) = true := by
  rw [isVerbPart, startsWith, Option.isSome_iff_exists]
  exact ⟨verb, after?_eq_some.2 rfl⟩

theorem reverbed_reverbed (v : Verb) (p : List Char) : Reverbed v p (reverbed v p) := by
  cases hp : isVerbPart p with
  | true =>
    rw [reverbed, if_pos hp]
    exact .verb hp
  | false =>
    rw [reverbed, hp, if_neg Bool.false_ne_true]
    exact .other hp

@[simp] theorem isVerbPart_reverbed (v : Verb) (p : List Char) : isVerbPart (reverbed v p) = isVerbPart p := by
  cases hp : isVerbPart p <;> simp [reverbed, hp]

/-- The last change of a part counts. -/
@[simp] theorem reverbed_again (v w : Verb) (p : List Char) : reverbed w (reverbed v p) = reverbed w p := by
  cases hp : isVerbPart p <;> simp [reverbed, hp]

/-! ### Lists of parts -/

theorem reverb_again (v w : Verb) (ps : List (List Char)) : reverb w (reverb v ps) = reverb w ps := by
  have hnew : reverbed w (Verb.queryOf v.text.toList) = Verb.queryOf w.text.toList :=
    if_pos (isVerbPart_queryOf _)
  cases hany : ps.any isVerbPart <;> simp [reverb, hany, hnew, Function.comp_def]

theorem filter_reverb (v : Verb) (ps : List (List Char)) :
    (reverb v ps).filter (!isVerbPart ·) = ps.filter (!isVerbPart ·) := by
  have hmap : (ps.map (reverbed v)).filter (!isVerbPart ·) = ps.filter (!isVerbPart ·) := by
    rw [List.filter_map]
    simp only [Function.comp_def, isVerbPart_reverbed]
    refine (List.map_congr_left fun p hp => ?_).trans (List.map_id' _)
    have hno : isVerbPart p = false := by simpa using (List.mem_filter.1 hp).2
    rw [reverbed, hno, if_neg Bool.false_ne_true]
  rw [reverb, List.filter_append, hmap]
  split <;> simp

theorem reverb_ne_nil (v : Verb) (ps : List (List Char)) : reverb v ps ≠ [] := by
  cases ps <;> simp [reverb]

theorem mem_reverb (hp : p ∈ reverb v ps) : p ∈ ps ∨ p = Verb.queryOf v.text.toList := by
  obtain hp | hp := List.mem_append.1 hp
  · obtain ⟨q, hq, rfl⟩ := List.mem_map.1 hp
    rw [reverbed]
    split
    · exact .inr rfl
    · exact .inl hq
  · split at hp
    · contradiction
    · exact .inr (List.mem_singleton.1 hp)

/-! ### Texts -/

theorem notMem_before (s : List Char) : '?' ∉ before '?' s := fun hc => (mem_of_mem_before hc).2 rfl

theorem mem_typedParts (hp : p ∈ typedParts s) : p ≠ [] ∧ '&' ∉ p := by
  obtain ⟨hp, hne⟩ := List.mem_filter.1 hp
  exact ⟨by simpa using hne, fun hc => (mem_of_mem_split hp hc).2 rfl⟩

theorem verbParts_eq (v : Verb) (s : List Char) :
    verbParts v ((typedQuery? s).getD []) = reverb v (typedParts s) := by
  have hnew : (Verb.param ++ "=" ++ v.text).toList = Verb.queryOf v.text.toList := by simp [Verb.queryOf]
  rw [verbParts, hnew]
  rfl

theorem toList_withVerb_reverb (url : String) (v : Verb) : (withVerb url v).toList =
    before '?' url.toList ++ '?' :: join ['&'] (reverb v (typedParts url.toList)) := by
  rw [toList_withVerb_join, verbParts_eq]

theorem before_withVerb (url : String) (v : Verb) :
    before '?' (withVerb url v).toList = before '?' url.toList := by
  rw [toList_withVerb_reverb, before_append_cons (notMem_before url.toList)]

/-- The parts are read again as they were written. -/
theorem typedParts_withVerb (hv : '&' ∉ v.text.toList) (url : String) :
    typedParts (withVerb url v).toList = reverb v (typedParts url.toList) := by
  have hmark : '&' ∉ (Verb.param ++ "=").toList := by decide
  have hnew : '&' ∉ Verb.queryOf v.text.toList := fun hc => (List.mem_append.1 hc).elim hmark hv
  have hparts : ∀ p ∈ reverb v (typedParts url.toList), p ≠ [] ∧ '&' ∉ p := by
    intro p hp
    obtain hp | rfl := mem_reverb hp
    · exact mem_typedParts hp
    · exact ⟨by simp [Verb.queryOf, Verb.param], hnew⟩
  rw [typedParts, typedQuery?, toList_withVerb_reverb, cut?_append_cons (notMem_before url.toList)]
  rw [Option.map_some, Option.getD_some, split_join (reverb_ne_nil v _) fun p hp => (hparts p hp).2]
  exact List.filter_eq_self.2 fun p hp => by simpa using (hparts p hp).1

theorem withVerb_again (hv : '&' ∉ v.text.toList) (w : Verb) (url : String) :
    withVerb (withVerb url v) w = withVerb url w := by
  refine String.toList_injective ?_
  rw [toList_withVerb_reverb _ w, before_withVerb, typedParts_withVerb hv, reverb_again, toList_withVerb_reverb]

/-- A change of the verb changes nothing else. What stands before the first question mark is the same, and
behind it stand the parts of the query that are not empty, with nothing between them but their separators:
those that carry no verb as they were, and in their order, and each that carries one with the new verb. If
there was none, one is added at the end. Of two changes the second one counts. -/
theorem withVerb_keeps (url : String) {v : Verb} (hv : '&' ∉ v.text.toList) (w : Verb) :
    let s := url.toList
    let t := (withVerb url v).toList
    before '?' t = before '?' s ∧ t = before '?' s ++ '?' :: join ['&'] (typedParts t) ∧
    (typedParts t).filter (!isVerbPart ·) = (typedParts s).filter (!isVerbPart ·) ∧
    (∃ ps, List.Forall₂ (Reverbed v) (typedParts s) ps ∧
      typedParts t = ps ++ if (typedParts s).any isVerbPart then [] else [Verb.queryOf v.text.toList]) ∧
    withVerb (withVerb url v) w = withVerb url w := by
  intro s t
  have hparts : typedParts t = reverb v (typedParts s) := typedParts_withVerb hv url
  refine ⟨before_withVerb url v, ?_, ?_, ⟨(typedParts s).map (reverbed v), ?_, hparts⟩, withVerb_again hv w url⟩
  · rw [hparts]
    exact toList_withVerb_reverb url v
  · rw [hparts, filter_reverb]
  · exact List.forall₂_map_right_iff.2 (List.forall₂_same.2 fun p _ => reverbed_reverbed v p)

/-- Empty parts, a verb twice, one of them without a value, a name that only ends like that of the verb, and a
second question mark. -/
theorem withVerb_keeps_crowded : '&' ∉ (Verb.mk "PUT").text.toList ∧
    withVerb "/a?x&&MT=get&MT=&XMT=1&y?z&" ⟨"PUT"⟩ = "/a?x&MT=PUT&MT=PUT&XMT=1&y?z" ∧
    (typedParts (withVerb "/a?x&&MT=get&MT=&XMT=1&y?z&" ⟨"PUT"⟩).toList).filter (!isVerbPart ·) =
      ["x".toList, "XMT=1".toList, "y?z".toList] ∧
    withVerb (withVerb "/a?x&&MT=get&MT=&XMT=1&y?z&" ⟨"PUT"⟩) ⟨"DELETE"⟩ =
      "/a?x&MT=DELETE&MT=DELETE&XMT=1&y?z" := by
  have hv : '&' ∉ (Verb.mk "PUT").text.toList := by decide
  obtain ⟨-, -, hother, -, hlast⟩ := withVerb_keeps "/a?x&&MT=get&MT=&XMT=1&y?z&" hv ⟨"DELETE"⟩
  exact ⟨hv, by decide +kernel, hother.trans (by decide +kernel), hlast.trans (by decide +kernel)⟩

end MockRedirect.Endpoint
