import MockRedirect.Proofs.Quoted
import MockRedirect.Proofs.Reading
/-! Indented text is read back as the tree that was written, unless the tree is nested too deeply: then
reading it fails. -/
namespace MockRedirect

/-- A binary64 number that is read back from its text. Not every one is, as digits and exponent are
rounded one after the other. -/
def Binary64.ReadsBack (x : Binary64) : Prop := Json.ReadsAs x.text (.float x)

namespace Json
open Document

/-- A value that is read back from its text, if it is a number. -/
structure Lasting (v : Json) : Prop where
  int : v.Short
  float : ∀ x, v = .float x → x.ReadsBack

theorem lasting_int {n : Int} (hlow : -(Nat.pow 2 63 : Nat) ≤ n) (hhigh : n < (Nat.pow 2 64 : Nat)) :
    (Json.int n).Lasting := by
  refine ⟨fun k hk => ?_, fun x hx => by contradiction⟩
  cases hk
  exact ⟨hlow, hhigh⟩

theorem lasting_float {x : Binary64} (h : x.ReadsBack) : (Json.float x).Lasting := by
  refine ⟨short_of_not_int fun _ => by simp, fun y hy => ?_⟩
  cases hy
  exact h

theorem lasting_bool (b : Bool) : (Json.bool b).Lasting :=
  ⟨short_of_not_int fun _ => by simp, fun _ => by simp⟩

theorem lasting_str (s : String) : (Json.str s).Lasting :=
  ⟨short_of_not_int fun _ => by simp, fun _ => by simp⟩

variable {keys : List String → Prop} {v : Json} {xs : List Json} {ms : Members} {s rest : List Char}

/-! ### Written tokens -/

theorem isSpace_blank : IsSpace [' '] := by simp [IsSpace, isSpace]

theorem isSpace_indent (k : Nat) : IsSpace (indent k) := by
  intro c hc
  obtain rfl | hc := List.mem_cons.1 hc
  · rfl
  · rw [List.eq_of_mem_replicate hc]
    rfl

/-- The inside of a quoted string. -/
theorem escaped_body (key : String) :
    IsBody (key.toList.flatMap escape) ∧ stringValue? (key.toList.flatMap escape) = some key := by
  obtain ⟨b, hb, hbody, hvalue⟩ := exists_body_of_readString (readString_quoted key [])
  obtain rfl := (List.append_inj' hb rfl).1
  exact ⟨hbody, hvalue⟩

theorem quoted_append (key : String) (s : List Char) :
    quoted key ++ s = '"' :: (key.toList.flatMap escape ++ '"' :: s) := by
  simp [quoted]

theorem word_of_readsAs (h : ReadsAs s v) : IsWord s ∧ wordValue? s = some v := by
  have hread := h.readValue 0 0 delimited_nil
  rw [List.append_nil] at hread
  obtain ⟨c, t, rfl, hc⟩ : ∃ c t, s = c :: t ∧ isWordChar c = true := by
    obtain h | ⟨ds, rfl, -⟩ := h
    · obtain ⟨c, t, rfl, hc⟩ := exists_digit_of_readNumber h
      exact ⟨c, t, rfl, isWordChar_of_isAsciiDigit hc⟩
    · exact ⟨'-', ds, rfl, rfl⟩
  obtain ⟨w, hw, hword, hvalue⟩ := exists_word hc hread
  rw [List.append_nil] at hw
  rw [hw]
  exact ⟨hword, hvalue⟩

/-! ### Written trees -/

/-- A text spells a document with this tree. -/
def Writes (s : List Char) (v : Json) : Prop := ∃ e, Spells .strict s (.value e) ∧ e.value? = some v

/-- The elements behind the first one, up to and with the closing bracket. -/
def WritesMore (s : List Char) (xs : List Json) : Prop :=
  ∃ g t es, s = g ++ t ∧ IsSpace g ∧ Spells .strict t (.moreItems es) ∧ itemValues? es = some xs

/-- The members behind the first one, up to and with the closing brace. -/
def WritesMoreMembers (s : List Char) (ms : Members) : Prop :=
  ∃ g t es, s = g ++ t ∧ IsSpace g ∧ Spells .strict t (.moreMembers es) ∧ memberValues? es = some ms

variable {x : Json} {t : List Char} {n : Nat}

theorem Writes.word (h : IsWord s ∧ wordValue? s = some v) : Writes s v := ⟨.word s, .word h.1, h.2⟩

theorem writes_of_isScalar (hv : v.IsScalar) (hl : v.Lasting) (n : Nat) : Writes (v.pretty n) v := by
  cases v with
  | null => exact .word (s := "null".toList) ⟨⟨by decide, Text.forall_mem_of_all (by decide)⟩, rfl⟩
  | bool b =>
    cases b with
    | true => exact .word (s := "true".toList) ⟨⟨by decide, Text.forall_mem_of_all (by decide)⟩, rfl⟩
    | false => exact .word (s := "false".toList) ⟨⟨by decide, Text.forall_mem_of_all (by decide)⟩, rfl⟩
  | int k => exact .word (word_of_readsAs (readsAs_intText hl.int))
  | float x => exact .word (word_of_readsAs (hl.float x rfl))
  | str s =>
    obtain ⟨hbody, hvalue⟩ := escaped_body s
    exact ⟨.text _, .text hbody, value?_text.2 ⟨s, hvalue, rfl⟩⟩
  | arr | obj => exact hv.elim

theorem Writes.item (hx : Writes s x) (hxs : WritesMore t xs) :
    ∃ es, Spells .strict (s ++ t) (.items es) ∧ itemValues? es = some (x :: xs) := by
  obtain ⟨e, he, hx⟩ := hx
  obtain ⟨g, t, es, rfl, hg, ht, hes⟩ := hxs
  exact ⟨e :: es, .item he hg ht, itemValues?_cons.2 ⟨x, xs, hx, hes, rfl⟩⟩

theorem writesMore_pretty (hxs : ∀ x ∈ xs, Writes (x.pretty (n + 1)) x) :
    WritesMore (prettyItems n xs) xs := by
  induction xs with
  | nil => exact ⟨indent n, [']'], [], rfl, isSpace_indent n, .lastItem, rfl⟩
  | cons x xs ih =>
    rw [List.forall_mem_cons] at hxs
    obtain ⟨es, hes, hvalue⟩ := hxs.1.item (ih hxs.2)
    refine ⟨[], _, es, ?_, isSpace_nil, .nextItem (isSpace_indent (n + 1)) hes, hvalue⟩
    simp [prettyItems]

theorem writes_arr (hxs : ∀ x ∈ xs, Writes (x.pretty (n + 1)) x) :
    Writes ((Json.arr xs).pretty n) (.arr xs) := by
  cases xs with
  | nil =>
    have hs : Spells .strict ('[' :: ([] ++ [']'])) (.value (.list [])) := .emptyList isSpace_nil
    exact ⟨.list [], hs, rfl⟩
  | cons x xs =>
    rw [List.forall_mem_cons] at hxs
    obtain ⟨es, hes, hvalue⟩ := hxs.1.item (writesMore_pretty hxs.2)
    refine ⟨.list es, ?_, value?_list.2 ⟨_, hvalue, rfl⟩⟩
    have hs : Spells .strict _ _ := .list (isSpace_indent (n + 1)) hes
    simpa [pretty] using hs

theorem Writes.member (hx : Writes s x) (hms : WritesMoreMembers t ms) (key : String) :
    ∃ es, Spells .strict (quoted key ++ ([':', ' '] ++ (s ++ t))) (.members es) ∧
      memberValues? es = some ((key, x) :: ms) := by
  obtain ⟨e, he, hx⟩ := hx
  obtain ⟨g, t, es, rfl, hg, ht, hes⟩ := hms
  obtain ⟨hbody, hkey⟩ := escaped_body key
  refine ⟨(_, e) :: es, ?_, memberValues?_cons.2 ⟨key, x, ms, hkey, hx, hes, rfl⟩⟩
  rw [quoted_append]
  exact .member hbody isSpace_nil isSpace_blank he hg ht

theorem writesMoreMembers_pretty (hms : ∀ m ∈ ms, Writes (m.2.pretty (n + 1)) m.2) :
    WritesMoreMembers (prettyMembers n ms) ms := by
  induction ms with
  | nil => exact ⟨indent n, ['\x7d'], [], rfl, isSpace_indent n, .lastMember, rfl⟩
  | cons m ms ih =>
    rw [List.forall_mem_cons] at hms
    obtain ⟨es, hes, hvalue⟩ := hms.1.member (ih hms.2) m.1
    refine ⟨[], _, es, ?_, isSpace_nil, .nextMember (isSpace_indent (n + 1)) hes, hvalue⟩
    simp [prettyMembers]

theorem writes_obj (hms : ∀ m ∈ ms, Writes (m.2.pretty (n + 1)) m.2) :
    Writes ((Json.obj ms).pretty n) (.obj ms) := by
  cases ms with
  | nil =>
    have hs : Spells .strict ('\x7b' :: ([] ++ ['\x7d'])) (.value (.record [])) := .emptyRecord isSpace_nil
    exact ⟨.record [], hs, rfl⟩
  | cons m ms =>
    rw [List.forall_mem_cons] at hms
    obtain ⟨es, hes, hvalue⟩ := hms.1.member (writesMoreMembers_pretty hms.2) m.1
    refine ⟨.record es, ?_, value?_record.2 ⟨_, hvalue, rfl⟩⟩
    have hs : Spells .strict _ _ := .record (isSpace_indent (n + 1)) hes
    simpa [pretty] using hs

/-- A tree is written as a text that spells it. -/
theorem writes_pretty (h : v.Every keys Lasting) (n : Nat) : Writes (v.pretty n) v := by
  induction h generalizing n with
  | scalar hv hl => exact writes_of_isScalar hv hl n
  | arr _ ih => exact writes_arr fun x hx => ih x hx (n + 1)
  | obj _ _ ih => exact writes_obj fun m hm => ih m hm (n + 1)

/-! ### What is read -/

mutual
/-- The integers in a tree that is read have at most 64 bits. -/
theorem every_short_of_value? :
    ∀ (e : Document) (v : Json), e.value? = some v → v.Every (fun _ => True) Short
  | .word _, _, h => .scalar (short_of_wordValue h).1 (short_of_wordValue h).2
  | .text _, _, h => by
    obtain ⟨s, -, rfl⟩ := value?_text.1 h
    exact .scalar trivial (short_of_not_int fun n h => by contradiction)
  | .list es, _, h => by
    obtain ⟨xs, hxs, rfl⟩ := value?_list.1 h
    exact .arr (every_short_of_itemValues? es xs hxs)
  | .record es, _, h => by
    obtain ⟨ms, hms, rfl⟩ := value?_record.1 h
    exact .obj trivial (every_short_of_memberValues? es ms hms)
theorem every_short_of_itemValues? : ∀ (es : List Document) (xs : List Json),
    itemValues? es = some xs → ∀ x ∈ xs, x.Every (fun _ => True) Short
  | [], _, h => by
    cases h
    simp
  | e :: es, _, h => by
    obtain ⟨x, xs, hx, hxs, rfl⟩ := itemValues?_cons.1 h
    exact List.forall_mem_cons.2 ⟨every_short_of_value? e x hx, every_short_of_itemValues? es xs hxs⟩
theorem every_short_of_memberValues? : ∀ (es : Entries) (ms : Members),
    memberValues? es = some ms → ∀ m ∈ ms, m.2.Every (fun _ => True) Short
  | [], _, h => by
    cases h
    simp
  | (_, e) :: es, _, h => by
    obtain ⟨key, x, ms, -, hx, hms, rfl⟩ := memberValues?_cons.1 h
    exact List.forall_mem_cons.2 ⟨every_short_of_value? e x hx, every_short_of_memberValues? es ms hms⟩
end

/-- What is read of a document, with repeated keys merged. -/
theorem tidy_of_parse {text : List Char} (h : parse text = .ok v) : v.Tidy Short := by
  obtain ⟨e, u, -, hu, -, rfl⟩ := parse_eq_ok.1 h
  exact (every_short_of_value? e u hu).merged

/-! ### Documents -/

theorem parse_pretty (h : v.Tidy Lasting) (hd : v.depth ≤ depthLimit) : parse (v.pretty 0) = .ok v := by
  obtain ⟨e, he, hv⟩ := writes_pretty h 0
  exact parse_eq_ok.2 ⟨e, v, ⟨[], v.pretty 0, [], by simp, isSpace_nil, isSpace_nil, he⟩, hv, hd, h.merged_eq⟩

/-- A written document is read back, if it is nested no deeper than documents may be. -/
theorem readDocument_pretty (h : v.Tidy Lasting) :
    (v.depth ≤ depthLimit → readDocument readTree (v.pretty 0 ++ ['\n']) = .ok v) ∧
      (¬v.depth ≤ depthLimit →
        ∃ p, readDocument readTree (v.pretty 0 ++ ['\n']) = .error ⟨.tooDeep, some p⟩) := by
  have hout : Outcome (readTree depthLimit (v.pretty 0 ++ ['\n'])) (v.depth ≤ depthLimit) v ['\n'] := by
    obtain ⟨e, he, hv⟩ := writes_pretty h 0
    have hraw : Outcome (readRaw depthLimit (v.pretty 0 ++ ['\n'])) (v.depth ≤ depthLimit) v ['\n'] :=
      readRaw_of_spells he hv isSpace_nil (delimited_cons rfl []) depthLimit
    have hmerged := hraw.bind (f := fun p => .ok (p.1.merged, p.2)) (.of_ok trivial rfl)
    rw [h.merged_eq, and_true] at hmerged
    exact hmerged
  constructor
  · intro hle
    rw [readDocument, hout.1 hle]
    rfl
  · intro hlt
    obtain ⟨left, hleft⟩ := hout.2 hlt
    rw [readDocument, hleft]
    exact ⟨_, rfl⟩

end Json
end MockRedirect
