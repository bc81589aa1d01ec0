import MockRedirect.Proofs.Intercept
import MockRedirect.Proofs.Normal
/-! The filter of a mock looks for one verb: wherever its path may begin and end in a URL, what stands after the only
`?MT=` of the URL, up to a separator, is the verb of the rule, and no longer, shorter or other one. -/
namespace MockRedirect
open Text

/-! ### Words -/

/-- A verb of ASCII letters and digits. -/
def Verb.IsWord (v : Verb) : Prop := ∀ c ∈ v.text.toList, c.isAlphanum = true

namespace Text

theorem isSeparator_of_isAlphanum {c : Char} (h : c.isAlphanum = true) : Token.isSeparator c = false :=
  of_ascii (p := fun c => c.isAlphanum = true → Token.isSeparator c = false) (by decide +kernel)
    (toNat_lt_of_isAlphanum h) h

/-- A letter in upper case and a digit are what folding makes of them, in upper case again. -/
theorem upper_folded_upper {c : Char} (h : (upper c).isAlphanum = true) : upper (folded (upper c)) = upper c := by
  have hcase : upper (upper c) = upper c := (upper_cases c).1
  revert hcase h
  generalize upper c = d
  intro h
  exact of_ascii (p := fun d => d.isAlphanum = true → upper d = d → upper (folded d) = d) (by decide +kernel)
    (toNat_lt_of_isAlphanum h) h

end Text

namespace Verb

theorem IsWord.not_star {v : Verb} (h : v.IsWord) : ∀ c ∈ v.text.toList, c ≠ '*' ∧ c ≠ '^' := by
  intro c hc
  have hword := h c hc
  constructor <;> rintro rfl <;> exact absurd hword (by decide)

/-- Normal verbs that are the same when case does not count are the same. -/
theorem IsNormal.eq_of_folded {v w : Verb} (hv : v.IsNormal) (hw : w.IsNormal) (hvword : v.IsWord)
    (hwword : w.IsWord) (h : v.text.toList.map folded = w.text.toList.map folded) : v = w := by
  have hback : ∀ {u : Verb}, u.IsNormal → u.IsWord → (u.text.toList.map folded).map upper = u.text.toList := by
    intro u hu huword
    have hupper : u.text.toList = uppercase (trim u.text.toList) := by
      conv_lhs => rw [← show of u.text.toList = u from hu, of, String.toList_ofList]
    rw [IsWord, hupper] at huword
    rw [hupper, uppercase, List.map_map, List.map_map]
    exact List.map_congr_left fun c hc => upper_folded_upper (huword _ (List.mem_map_of_mem hc))
  have htext : v.text.toList = w.text.toList := by rw [← hback hv hvword, h, hback hw hwword]
  rw [← show of v.text.toList = v from hv, htext]
  exact hw

end Verb

/-! ### Marked URLs -/

/-- What stands before a verb, in lower case. -/
def Verb.mark : List Char := "?mt=".toList

/-- What follows each `?MT=`, in any case, in a text. -/
def Verb.afterMarks : List Char → List (List Char)
  | [] => []
  | c :: s =>
    if ((c :: s).take mark.length).map folded = mark then (c :: s).drop mark.length :: afterMarks s else afterMarks s

theorem Verb.mem_afterMarks {s rest : List Char} (front : List Char) {found : List Char}
    (hs : s = front ++ (found ++ rest)) (hfound : found.map folded = mark) : rest ∈ afterMarks s := by
  have hlength : mark.length = found.length := by rw [← hfound, List.length_map]
  subst hs
  induction front with
  | nil =>
    obtain ⟨c, cs, rfl, -, -⟩ := List.map_eq_cons_iff.1 hfound
    rw [List.nil_append, List.cons_append, afterMarks, ← List.cons_append, hlength, List.take_left, List.drop_left,
      if_pos hfound]
    exact List.mem_cons_self
  | cons c front ih =>
    rw [List.cons_append, afterMarks]
    split
    · exact List.mem_cons_of_mem _ ih
    · exact ih

/-- The front of a text that cannot hold a separator, case not counted, ends where a verb can end. -/
theorem Token.takeWhile_word {v : Verb} {word tail : List Char} (hv : v.IsWord)
    (hword : word.map folded = v.text.toList.map folded) (htail : Ends tail) :
    (word ++ tail).takeWhile (fun c => !isSeparator c) = word := by
  have hinside : ∀ c ∈ word, (!isSeparator c) = true := by
    intro c hc
    obtain ⟨d, hd, hfolded⟩ := List.mem_map.1 (hword ▸ List.mem_map_of_mem hc)
    have hsame : isSeparator c = isSeparator d := by simp only [isSeparator, hfolded]
    rw [hsame, isSeparator_of_isAlphanum (hv d hd), Bool.not_false]
  have hstop : tail.takeWhile (fun c => !isSeparator c) = [] := by
    cases htail with
    | done => rfl
    | more hc rest => rw [List.takeWhile_cons_of_neg (by simp [isSeparator_iff.2 hc])]
  rw [List.takeWhile_append_of_pos hinside, hstop, List.append_nil]

/-- Where the filter of an endpoint admits a URL with one mark, the verb stands after the mark. -/
theorem Endpoint.word_of_admits {ep : Endpoint} {url : String} {rest : List Char} (hword : ep.verb.IsWord)
    (hmarked : Verb.afterMarks url.toList = [rest])
    (h : UrlFilter.admits ⟨.none, ep.filterText.toList.map Token.of, false⟩ url = true) :
    (rest.takeWhile fun c => !Token.isSeparator c).map folded = ep.verb.text.toList.map folded := by
  obtain ⟨front, pre, path, verb, tail, hurl, -, -, hverb, htail⟩ := (admits_filter_iff hword.not_star).1 h
  rw [List.map_append] at hverb
  obtain ⟨found, word, rfl, hfound, hsame⟩ := List.map_eq_append_iff.1 hverb
  -- wherever the path has slid to, the mark of the filter is one of the URL, and there is only one
  have hmem : word ++ tail ∈ Verb.afterMarks url.toList :=
    Verb.mem_afterMarks (front ++ (pre ++ path)) (by simp [hurl]) (hfound.trans rfl)
  rw [hmarked, List.mem_singleton] at hmem
  rw [← hmem, Token.takeWhile_word hword hsame htail, hsame]

/-! ### Rules of mocks -/

namespace Mock

variable {m m' : Mock} {url : String} {rest : List Char}

/-- The endpoint that the rule of a mock is for. Where the verb is empty, that of the template stands in for it. -/
def target (m : Mock) : Endpoint :=
  let (path, own) := Endpoint.splitTemplate (trimmed m.urlTemplate)
  ⟨if startsWith ['/'] path.toList then path else "/" ++ path, if m.verb.isEmpty then own.getD .get else m.verb⟩

theorem filterText_target (m : Mock) : filterText (trimmed m.urlTemplate) m.verb = m.target.filterText := by
  rw [filterText, Endpoint.filterText, Endpoint.template, target]

theorem isNormal_target (h : m.verb.IsNormal) : m.target.verb.IsNormal := by
  simp only [target]
  split
  · rw [Endpoint.splitTemplate]
    split
    · next a _ =>
      cases hverb : a.verb? with
      | none => exact (by decide : Verb.get.IsNormal)
      | some v => exact Address.isNormal_of_verb? hverb
    · cases hverb : Endpoint.typedVerb? (trimmed m.urlTemplate).toList with
      | none => exact (by decide : Verb.get.IsNormal)
      | some v => exact Endpoint.isNormal_of_typedVerb? hverb
  · exact h

/-- A rule can be built for the mock, and its filter admits the URL. -/
def Catches (m : Mock) (url : String) : Prop :=
  ∃ id r f, m.rule id = .ok r ∧ UrlFilter.parse r.condition.urlFilter = .ok f ∧ f.admits url = true

theorem catches_iff : m.Catches url ↔ (trimmed m.urlTemplate ≠ "" ∧ isAscii m.target.filterText.toList = true) ∧
    UrlFilter.admits ⟨.none, m.target.filterText.toList.map Token.of, false⟩ url = true := by
  simp only [Catches, rule_eq_ok_iff, filterText_target]
  constructor
  · rintro ⟨id, _, f, ⟨hbuilt, rfl⟩, hparse, hadmits⟩
    cases (Endpoint.parse_filterText hbuilt.2).symm.trans hparse
    exact ⟨hbuilt, hadmits⟩
  · rintro ⟨hbuilt, hadmits⟩
    exact ⟨1, _, _, ⟨hbuilt, rfl⟩, Endpoint.parse_filterText hbuilt.2, hadmits⟩

/-- In a URL with one `?MT=` that the rule of a mock catches, what follows it up to a separator is the verb of the rule
when case does not count. No mock whose rule is for another verb catches the URL. -/
theorem verb_of_catches (hmarked : Verb.afterMarks url.toList = [rest]) (hword : m.target.verb.IsWord)
    (h : m.Catches url) :
    (rest.takeWhile fun c => !Token.isSeparator c).map folded = m.target.verb.text.toList.map folded ∧
      ∀ m' : Mock, m.verb.IsNormal → m'.verb.IsNormal → m'.target.verb.IsWord →
        m'.target.verb ≠ m.target.verb → ¬m'.Catches url := by
  have hverb := Endpoint.word_of_admits hword hmarked (catches_iff.1 h).2
  refine ⟨hverb, fun m' hn hn' hword' hne h' => hne ?_⟩
  have hverb' := Endpoint.word_of_admits hword' hmarked (catches_iff.1 h').2
  exact (isNormal_target hn').eq_of_folded (isNormal_target hn) hword' hword (hverb'.symm.trans hverb)

/-- A mock of a template, with a verb of its own. -/
def ofTemplate (template : String) (verb : Verb) : Mock := ⟨⟨1⟩, "", template, verb, .int 0, true⟩

theorem target_ofTemplate : (ofTemplate "/a/*?MT=GET" ⟨"PUT1"⟩).target = ⟨"/a/*", ⟨"PUT1"⟩⟩ := rfl

theorem catches_ofTemplate : (ofTemplate "/a/*?MT=GET" ⟨"PUT1"⟩).Catches "http://h/a/b?c?Mt=put1&d" := by
  rw [catches_iff, target_ofTemplate]
  exact ⟨by decide, by decide +kernel⟩

/-- A verb that goes on, and one that ends before it, in a URL with another question mark. -/
theorem verb_of_catches_put :
    (ofTemplate "/a/*?MT=GET" ⟨"PUT1"⟩).Catches "http://h/a/b?c?Mt=put1&d" ∧
      ¬(ofTemplate "/*?MT=PUT" ⟨"PUT"⟩).Catches "http://h/a/b?c?Mt=put1&d" := by
  have hmarked : Verb.afterMarks "http://h/a/b?c?Mt=put1&d".toList = ["put1&d".toList] := by decide
  have hword : (ofTemplate "/a/*?MT=GET" ⟨"PUT1"⟩).target.verb.IsWord := by
    rw [target_ofTemplate]
    exact forall_mem_of_all (by decide)
  have htarget : (ofTemplate "/*?MT=PUT" ⟨"PUT"⟩).target.verb = ⟨"PUT"⟩ := rfl
  refine ⟨catches_ofTemplate, (verb_of_catches hmarked hword catches_ofTemplate).2 _ (by decide) (by decide) ?_ ?_⟩
  · rw [htarget]
    exact forall_mem_of_all (by decide)
  · rw [htarget, target_ofTemplate]
    decide

end Mock

end MockRedirect
