import MockRedirect.Proofs.Pieces
import MockRedirect.Proofs.Strip
/-! Templates in which comments and meta members are put between the tokens of a document. -/
namespace MockRedirect.Template
open Document Text

variable {s t : List Char} {st : Style} {d : Document} {v : Json}

/-! ### Ends -/

def isScalarPart : Part → Bool
  | .value d => !d.isContainer
  | _ => false

/-- A text ends with a character that is not a blank, and that is a closing bracket if nothing else may
stand there. -/
def Ends (scalar : Bool) (s : List Char) : Prop :=
  ∃ r c, s = r ++ [c] ∧ isBlank c = false ∧ (isClosing c = true ∨ scalar = true)

theorem Ends.append {scalar : Bool} (h : Ends scalar s) (p : List Char) : Ends scalar (p ++ s) := by
  obtain ⟨r, c, rfl, hc⟩ := h
  exact ⟨p ++ r, c, (List.append_assoc ..).symm, hc⟩

theorem Ends.cons {scalar : Bool} (h : Ends scalar s) (c : Char) : Ends scalar (c :: s) := h.append [c]

theorem ends_of_spells {p : Part} (h : Spells st s p) : Ends (isScalarPart p) s := by
  have hclosing {c : Char} (hc : c = ']' ∨ c = '\x7d') (scalar : Bool) : Ends scalar [c] := by
    obtain rfl | rfl := hc <;> exact ⟨[], _, rfl, rfl, .inl rfl⟩
  induction h with
  | @word w hw =>
    obtain ⟨hne, hw⟩ := hw
    have hlast := Json.isBlank_of_isWordChar (hw _ (List.getLast_mem hne))
    exact ⟨_, _, (List.dropLast_concat_getLast hne).symm, hlast, .inr rfl⟩
  | @text b => exact ⟨'"' :: b, '"', rfl, rfl, .inr rfl⟩
  | emptyList | emptyRecord | trailingItem | trailingMember =>
    exact ((hclosing (by simp) _).append _).cons _
  | lastItem | lastMember => exact hclosing (by simp) _
  | list _ _ ih | record _ _ ih | nextItem _ _ ih | nextMember _ _ ih => exact (ih.append _).cons _
  | item _ _ _ _ ih => exact (ih.append _).append _
  | member _ _ _ _ _ _ _ ih | extra _ _ _ _ _ _ _ _ ih =>
    exact (((((((ih.append _).append _).append _).cons _).append _).cons _).append _).cons _
  | bare _ _ _ _ _ ih => exact (((((ih.append _).cons _).append _).cons _).append _).cons _

theorem blank_of_space {g : List Char} (hg : IsSpace g) : ∀ c ∈ g, isBlank c = true :=
  fun c hc => isBlank_of_isAsciiBlank (Json.isAsciiBlank_of_isSpace (hg c hc))

theorem trim_whole (h : st.blank.Whole s d) : st.blank.Whole (trim s) d := by
  obtain ⟨g, t, g', rfl, hg, hg', ht⟩ := h
  have htrim : trim (g ++ (t ++ g')) = t := by
    refine trim_append (blank_of_space hg) (blank_of_space hg') ?_ ?_ ?_
    · exact List.ne_nil_of_length_pos ht.pos
    · obtain ⟨c, u, rfl, hc, -⟩ := ht.starts
      rintro _ ⟨⟩
      exact hc
    · obtain ⟨r, c, rfl, hc, -⟩ := ends_of_spells ht
      simpa using hc
  exact ⟨[], t, [], by simpa using htrim, Json.isSpace_nil, Json.isSpace_nil, ht⟩

/-! ### Keys -/

/-- A key that is written with this character in front starts with it. -/
theorem stringValue?_cons {c : Char} {b : List Char} {key : String} (hquote : c ≠ '"') (hslash : c ≠ '\\')
    (hcontrol : ¬c.toNat < 32) (h : stringValue? (c :: b) = some key) : key.toList.head? = some c := by
  have hread := Json.stringValue?_eq_some.1 h
  obtain ⟨⟨cs, rest⟩, hcs, hread⟩ := bind_eq_ok.1 hread
  cases hread
  rw [List.cons_append, Json.readStringBody, if_neg hquote, if_neg hslash, if_neg hcontrol] at hcs
  obtain ⟨⟨ds, _⟩, -, hcs⟩ := bind_eq_ok.1 hcs
  cases hcs
  simp

theorem isMetaKey_of_stringValue? {k : List Char} {key : String} (hk : isMetaKey k = true)
    (h : stringValue? k = some key) : isMetaKey key.toList = true := by
  cases k with
  | nil => contradiction
  | cons c k =>
    have hc : c = '@' := by simpa [isMetaKey, metaMark] using hk
    subst hc
    have hhead := stringValue?_cons (by decide) (by decide) (by decide) h
    simp [isMetaKey, hhead, metaMark]

/-! ### Templates -/

/-- The text of a document without some of its members is read as a tree that differs in these alone. -/
theorem parse_without {drop : List Char → Bool} {noise : String → Bool}
    (hdrop : ∀ k key, drop k = true → stringValue? k = some key → noise key = true)
    (hs : Style.strict.Whole s d) (hd : d.value?.isSome) (hv : Json.parse s = .ok v)
    (ht : Style.strict.Whole t (d.without drop)) :
    ∃ w, Json.parse t = .ok w ∧ w.prune noise = v.prune noise := by
  obtain ⟨u, hu⟩ := Option.isSome_iff_exists.1 hd
  obtain ⟨hdepth, rfl⟩ := (Json.parse_of_whole hs hu).1 hv
  obtain ⟨w, hw, hprune, hle⟩ := value?_without hdrop d u hu
  refine ⟨w.merged, (Json.parse_of_whole ht hw).2 ⟨hle.trans hdepth, rfl⟩, ?_⟩
  rw [Json.prune_merged, Json.prune_merged, hprune]

theorem not_all_blank (h : st.Whole s d) : ¬s.all isBlank = true := by
  obtain ⟨g, t, g', rfl, -, -, ht⟩ := h
  obtain ⟨r, c, rfl, hc, -⟩ := ends_of_spells ht
  simp [hc]

theorem sampleText_annotated (h : annotated.Whole t d) :
    Style.strict.Whole (sampleText t) (d.without isMetaKey) := by
  have hcomments : annotated.blank.Whole (stripComments t) d := stripComments_whole (fun _ => id) h
  have hfields : annotated.plain.Whole (stripFields isMetaKey (stripComments t)) (d.without isMetaKey) :=
    stripFields_whole (fun _ => id) (fun _ => id) hcomments
  have hstrict : annotated.plain = Style.strict.blank := rfl
  rw [hstrict] at hfields
  exact trim_whole hfields

/-- A template in which annotations are put into a document is parsed to the tree of this document without
its meta members. The document is one whose plain text is read as JSON. -/
theorem parse_annotated (h : Json.parse s = .ok v) :
    (∃ d, Style.strict.Whole s d ∧ d.value?.isSome) ∧
      ∀ d t, Style.strict.Whole s d → d.value?.isSome → annotated.Whole t d →
        parse t = .ok (v.prune fun k => isMetaKey k.toList) := by
  constructor
  · obtain ⟨d, u, hs, hu, -, -⟩ := Json.parse_eq_ok.1 h
    exact ⟨d, hs, by simp [hu]⟩
  · intro d t hs hd ht
    obtain ⟨w, hw, hprune⟩ := parse_without (fun _ _ => isMetaKey_of_stringValue?) hs hd h
      (sampleText_annotated ht)
    rw [parse, if_neg (not_all_blank ht), hw]
    exact congrArg Except.ok hprune

/-- A comment with a quote in it, and a meta member without a value. -/
theorem parse_annotated_bare :
    Json.parse "\x7b\"a\":1\x7d".toList = .ok (.obj [("a", .int 1)]) ∧
      parse "\x7b/*\"*/\"@b\":,\"a\":1\x7d".toList = .ok (.obj [("a", .int 1)]) := by
  have hspace := Json.isSpace_nil
  have hgap : annotated.gap [] := IsGap.nil
  have hcomment : annotated.gap ('/' :: '*' :: (['"'] ++ '*' :: '/' :: [])) :=
    IsGap.comment (by decide) .nil
  have ha : IsBody ['a'] := .char (by decide) (by decide) .nil
  have hb : IsBody ['@', 'b'] := .char (by decide) (by decide) (.char (by decide) (by decide) .nil)
  have hone : IsWord ['1'] := ⟨by decide, forall_mem_of_all (by decide)⟩
  have hmember {st : Style} (hg : st.gap []) :
      Spells st "\"a\":1\x7d".toList (.members [(['a'], .word ['1'])]) :=
    .member ha hg hg (.word hone) hg .lastMember
  have hplain : Style.strict.Whole "\x7b\"a\":1\x7d".toList (.record [(['a'], .word ['1'])]) :=
    ⟨[], _, [], rfl, hspace, hspace, .record hspace (hmember hspace)⟩
  have hparse : Json.parse "\x7b\"a\":1\x7d".toList = .ok (.obj [("a", .int 1)]) :=
    (Json.parse_of_whole hplain rfl).2 ⟨by decide, rfl⟩
  have ht : annotated.Whole "\x7b/*\"*/\"@b\":,\"a\":1\x7d".toList (.record [(['a'], .word ['1'])]) :=
    ⟨[], _, [], rfl, hgap, hgap,
      .record hcomment (.bare hb rfl hgap hgap (.nextMember hgap (hmember hgap)))⟩
  exact ⟨hparse, (parse_annotated hparse).2 _ _ hplain rfl ht⟩

end MockRedirect.Template
