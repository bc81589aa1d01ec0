import MockRedirect.Proofs.Document
import MockRedirect.Proofs.Token
/-! The reader and the grammar agree: what it takes is a text that spells a document, and every such text
is taken, unless the tree is nested too deeply. -/
namespace MockRedirect
namespace Json
open Document

/-! ### Outcomes -/

/-- Reading gives a value and the rest of the text if the value fits, and stops as too deep if not. -/
def Outcome {α : Type} (r : Reading (α × List Char)) (fits : Prop) (a : α) (rest : List Char) : Prop :=
  (fits → r = .ok (a, rest)) ∧ (¬fits → ∃ left, r = .error (.placed .tooDeep left))

section
variable {α β : Type} {r : Reading (α × List Char)} {p q : Prop} {a : α} {b : β} {rest rest' : List Char}

theorem Outcome.of_ok (hp : p) (h : r = .ok (a, rest)) : Outcome r p a rest :=
  ⟨fun _ => h, fun hnp => absurd hp hnp⟩

theorem Outcome.of_iff (h : Outcome r p a rest) (hpq : p ↔ q) : Outcome r q a rest := by
  rwa [← propext hpq]

/-- Two readings one after the other. -/
theorem Outcome.bind {f : α × List Char → Reading (β × List Char)}
    (h : Outcome r p a rest) (hf : Outcome (f (a, rest)) q b rest') :
    Outcome (r >>= f) (p ∧ q) b rest' := by
  constructor
  · rintro ⟨hp, hq⟩
    rw [h.1 hp]
    exact hf.1 hq
  · intro hnot
    by_cases hp : p
    · rw [h.1 hp]
      exact hf.2 fun hq => hnot ⟨hp, hq⟩
    · obtain ⟨left, hleft⟩ := h.2 hp
      rw [hleft]
      exact ⟨left, rfl⟩

end

/-! ### Blanks and commas -/

variable {g g' s t u rest : List Char}
  {first : Bool}

theorem isSpace_nil : IsSpace [] := by simp [IsSpace]

theorem isSpace_append (hg : IsSpace g) (hg' : IsSpace g') : IsSpace (g ++ g') :=
  List.forall_mem_append.2 ⟨hg, hg'⟩

theorem skipSpace_append (hg : IsSpace g) (s : List Char) : skipSpace (g ++ s) = skipSpace s :=
  List.dropWhile_append_of_pos hg

theorem skipSpace_comma (s : List Char) : skipSpace (',' :: s) = ',' :: s := rfl

theorem exists_skipSpace (s : List Char) : ∃ g, IsSpace g ∧ s = g ++ skipSpace s :=
  ⟨s.takeWhile isSpace, fun _ => List.mem_takeWhile_imp, List.takeWhile_append_dropWhile.symm⟩

theorem Delimited.space_append (h : Delimited s) (hg : IsSpace g) : Delimited (g ++ s) := by
  cases g with
  | nil => exact h
  | cons c g =>
    refine delimited_cons ?_ _
    have hc := hg c List.mem_cons_self
    by_contra hword
    rw [isSpace_of_isWordChar (by simpa using hword)] at hc
    contradiction

/-- The next element or member starts here, behind blanks and, unless it is the first one, a comma. -/
inductive Leads : Bool → List Char → List Char → Prop
  | first {g s : List Char} (hg : IsSpace g) : Leads true (g ++ s) s
  | more {g g' s : List Char} (hg : IsSpace g) (hg' : IsSpace g') : Leads false (g ++ ',' :: (g' ++ s)) s

/-- Blanks before an element or member belong to what leads to it. -/
theorem Leads.absorb (h : Leads first t (g ++ s)) (hg : IsSpace g) : Leads first t s := by
  cases h with
  | @first g' _ hg' =>
    have h := Leads.first (s := s) (isSpace_append hg' hg)
    rwa [List.append_assoc] at h
  | @more g' g'' _ hg' hg'' =>
    have h := Leads.more (s := s) hg' (isSpace_append hg'' hg)
    rwa [List.append_assoc] at h

theorem leads_more (hg : IsSpace g) (t : List Char) : Leads false (g ++ ',' :: t) (skipSpace t) := by
  obtain ⟨g', hg', ht⟩ := exists_skipSpace t
  have h := Leads.more (s := skipSpace t) hg hg'
  rwa [← ht] at h

/-- The text of a value: it starts with a character that is neither a blank nor a closing bracket. -/
def Starts (s : List Char) : Prop := ∃ c t, s = c :: t ∧ Text.isBlank c = false ∧ c ≠ ']' ∧ c ≠ '\x7d'

theorem Starts.append (h : Starts s) (t : List Char) : Starts (s ++ t) := by
  obtain ⟨c, s, rfl, hc⟩ := h
  exact ⟨c, s ++ t, rfl, hc⟩

theorem Starts.skipSpace_eq (h : Starts s) : skipSpace s = s := by
  obtain ⟨c, t, rfl, hc, -⟩ := h
  exact skipSpace_cons (isSpace_of_not_isBlank hc) t

theorem starts_of_isWordChar {c : Char} (hc : isWordChar c = true) (s : List Char) : Starts (c :: s) := by
  refine ⟨c, s, rfl, isBlank_of_isWordChar hc, ?_, ?_⟩ <;> rintro rfl <;> contradiction

theorem nextItem_of_leads (h : Leads first t s) (hs : Starts s) : nextItem first t = .ok (true, s) := by
  have hskip := hs.skipSpace_eq
  obtain ⟨c, s, rfl, -, hc, -⟩ := hs
  cases h with
  | @first g _ hg =>
    rw [nextItem, skipSpace_append hg, hskip]
    split
    · contradiction
    · next heq =>
      cases heq
      contradiction
    · next heq => rw [if_pos rfl, heq]
  | @more g g' _ hg hg' =>
    rw [nextItem, skipSpace_append hg, skipSpace_comma]
    split
    · contradiction
    · next heq => exact absurd (List.cons.inj heq).1 (by decide)
    · next heq =>
      cases heq
      rw [if_neg Bool.false_ne_true, if_pos rfl, skipSpace_append hg', hskip]
      split
      · contradiction
      · next heq =>
        cases heq
        contradiction
      · rfl

theorem nextItem_end (hg : IsSpace g) (first : Bool) (rest : List Char) :
    nextItem first (g ++ ']' :: rest) = .ok (false, ']' :: rest) := by
  rw [nextItem, skipSpace_append hg]
  rfl

theorem nextItem_cases {more : Bool} (h : nextItem first t = .ok (more, s)) :
    (more = true ∧ Leads first t s) ∨
      (more = false ∧ ∃ g r, IsSpace g ∧ t = g ++ ']' :: r ∧ s = ']' :: r) := by
  obtain ⟨g, hg, ht⟩ := exists_skipSpace t
  unfold nextItem at h
  split at h
  · contradiction
  · next heq =>
    cases h
    exact .inr ⟨rfl, g, _, hg, heq ▸ ht, rfl⟩
  · next heq =>
    rw [heq] at ht
    split at h
    · next hfirst =>
      cases h
      rw [ht, hfirst]
      exact .inl ⟨rfl, .first hg⟩
    · next hfirst =>
      rw [Bool.not_eq_true] at hfirst
      split at h
      · next hcomma =>
        split at h
        · contradiction
        · contradiction
        · cases h
          rw [ht, hfirst, hcomma]
          exact .inl ⟨rfl, leads_more hg _⟩
      · contradiction

theorem nextKey_of_leads {k : List Char} {key : String} (hk : stringValue? k = some key)
    (h : Leads first t ('"' :: (k ++ '"' :: s))) : nextKey first t = .ok (some key, s) := by
  have hread : (readString (k ++ '"' :: s) >>= fun p => Except.ok (some p.1, p.2)) =
      (.ok (some key, s) : Reading _) := bind_eq_ok.2 ⟨_, readString_of_value hk s, rfl⟩
  have hquote (u : List Char) : skipSpace ('"' :: u) = '"' :: u := rfl
  cases h with
  | first hg =>
    rw [nextKey, skipSpace_append hg, hquote]
    exact hread
  | more hg hg' =>
    rw [nextKey, skipSpace_append hg, skipSpace_comma]
    split
    · contradiction
    · next heq => exact absurd (List.cons.inj heq).1 (by decide)
    · next heq =>
      cases heq
      rw [if_neg Bool.false_ne_true, if_pos rfl, skipSpace_append hg', hquote]
      exact hread

theorem nextKey_end (hg : IsSpace g) (first : Bool) (rest : List Char) :
    nextKey first (g ++ '\x7d' :: rest) = .ok (none, '\x7d' :: rest) := by
  rw [nextKey, skipSpace_append hg]
  rfl

theorem nextKey_cases {key : Option String} (h : nextKey first t = .ok (key, s)) :
    (∃ k name, key = some name ∧ IsBody k ∧ stringValue? k = some name ∧
      Leads first t ('"' :: (k ++ '"' :: s))) ∨
    (key = none ∧ ∃ g r, IsSpace g ∧ t = g ++ '\x7d' :: r ∧ s = '\x7d' :: r) := by
  have hkey {rest : List Char}
      (h : (readString rest >>= fun p => Except.ok (some p.1, p.2)) = (.ok (key, s) : Reading _)) :
      ∃ k name, key = some name ∧ IsBody k ∧ stringValue? k = some name ∧ rest = k ++ '"' :: s := by
    obtain ⟨⟨name, r⟩, hname, h⟩ := bind_eq_ok.1 h
    cases h
    obtain ⟨k, hrest, hk, hvalue⟩ := exists_body_of_readString hname
    exact ⟨k, name, rfl, hk, hvalue, hrest⟩
  obtain ⟨g, hg, ht⟩ := exists_skipSpace t
  unfold nextKey at h
  split at h
  · contradiction
  · next heq =>
    cases h
    exact .inr ⟨rfl, g, _, hg, heq ▸ ht, rfl⟩
  · next heq =>
    rw [heq] at ht
    split at h
    · next hfirst =>
      split at h
      · next hquote =>
        obtain ⟨k, name, hname, hk, hvalue, rfl⟩ := hkey h
        refine .inl ⟨k, name, hname, hk, hvalue, ?_⟩
        rw [ht, hfirst, hquote]
        exact .first hg
      · contradiction
    · next hfirst =>
      rw [Bool.not_eq_true] at hfirst
      split at h
      · next hcomma =>
        split at h
        · contradiction
        · next heq' =>
          obtain ⟨k, name, hname, hk, hvalue, rfl⟩ := hkey h
          refine .inl ⟨k, name, hname, hk, hvalue, ?_⟩
          rw [ht, hfirst, hcomma, ← heq']
          exact leads_more hg _
        · contradiction
        · contradiction
      · contradiction

theorem readColon_eq_ok : readColon t = .ok s ↔ ∃ g, IsSpace g ∧ t = g ++ ':' :: s := by
  constructor
  · intro h
    obtain ⟨g, hg, ht⟩ := exists_skipSpace t
    unfold readColon at h
    split at h
    · contradiction
    · next heq =>
      cases h
      exact ⟨g, hg, heq ▸ ht⟩
    · contradiction
  · rintro ⟨g, hg, rfl⟩
    rw [readColon, skipSpace_append hg]
    rfl

end Json

/-! ### Spelled texts -/

namespace Document
open Json

variable {st : Style} {s t : List Char}

theorem Spells.pos {p : Part} (h : Spells st s p) : 0 < s.length := by
  cases h with
  | word hw => exact List.length_pos_iff.2 hw.1
  | item hs =>
    cases hs with
    | word hw =>
      rw [List.length_append]
      exact Nat.add_pos_left (List.length_pos_iff.2 hw.1) _
    | _ => simp
  | _ => simp

theorem Spells.starts {e : Document} (h : Spells st s (.value e)) : Starts s := by
  cases h with
  | word hw =>
    obtain ⟨hne, hw⟩ := hw
    cases s with
    | nil => contradiction
    | cons c s => exact starts_of_isWordChar (hw c List.mem_cons_self) s
  | text => exact ⟨'"', _, rfl, by decide⟩
  | emptyList | list => exact ⟨'[', _, rfl, by decide⟩
  | emptyRecord | record => exact ⟨'\x7b', _, rfl, by decide⟩

theorem Spells.starts_items {es : List Document} (h : Spells st s (.items es)) : Starts s := by
  cases h with
  | item hs => exact hs.starts.append _

theorem Spells.starts_members {es : Entries} (h : Spells st s (.members es)) : Starts s := by
  cases h <;> exact ⟨'"', _, rfl, by decide⟩

theorem Spells.delimited_moreItems {es : List Document} (h : Spells st t (.moreItems es))
    (rest : List Char) : Delimited (t ++ rest) := by
  cases h <;> exact delimited_cons rfl _

theorem Spells.delimited_moreMembers {es : Entries} (h : Spells st t (.moreMembers es))
    (rest : List Char) : Delimited (t ++ rest) := by
  cases h <;> exact delimited_cons rfl _

end Document

namespace Json
open Document

variable {v : Json} {xs : List Json} {ms : Members} {d fuel : Nat} {g s t u rest : List Char} {first : Bool}

/-! ### What is spelled is read -/

theorem outcome_arr (h : ∀ d, Outcome (readItems fuel d true s) (∀ x ∈ xs, x.depth ≤ d) xs rest) :
    Outcome (readValue (fuel + 1) d ('[' :: s)) ((Json.arr xs).depth ≤ d) (.arr xs) rest := by
  cases d with
  | zero => exact ⟨fun hle => absurd hle (depth_arr_pos xs), fun _ => ⟨_, rfl⟩⟩
  | succ d =>
    have h := (h d).bind (f := fun p => .ok (Json.arr p.1, p.2)) (.of_ok trivial rfl)
    exact h.of_iff (by rw [depth_arr_le, and_true])

theorem outcome_obj (h : ∀ d, Outcome (readMembers fuel d true s) (∀ m ∈ ms, m.2.depth ≤ d) ms rest) :
    Outcome (readValue (fuel + 1) d ('\x7b' :: s)) ((Json.obj ms).depth ≤ d) (.obj ms) rest := by
  cases d with
  | zero => exact ⟨fun hle => absurd hle (depth_obj_pos ms), fun _ => ⟨_, rfl⟩⟩
  | succ d =>
    have h := (h d).bind (f := fun p => .ok (Json.obj p.1, p.2)) (.of_ok trivial rfl)
    exact h.of_iff (by rw [depth_obj_le, and_true])

theorem outcome_items {x : Json} (hnext : nextItem first t = .ok (true, s))
    (hx : Outcome (readValue fuel d s) (x.depth ≤ d) x u)
    (hxs : Outcome (readItems fuel d false u) (∀ y ∈ xs, y.depth ≤ d) xs rest) :
    Outcome (readItems (fuel + 1) d first t) (∀ y ∈ x :: xs, y.depth ≤ d) (x :: xs) rest := by
  rw [readItems, hnext]
  have h := hx.bind (f := fun p => readItems fuel d false p.2 >>= fun q => .ok (p.1 :: q.1, q.2))
    (hxs.bind (.of_ok trivial rfl))
  exact h.of_iff (by rw [List.forall_mem_cons, and_true])

theorem outcome_members {key : String} {x : Json} {s' : List Char}
    (hnext : nextKey first t = .ok (some key, s')) (hcolon : readColon s' = .ok s)
    (hx : Outcome (readValue fuel d s) (x.depth ≤ d) x u)
    (hms : Outcome (readMembers fuel d false u) (∀ m ∈ ms, m.2.depth ≤ d) ms rest) :
    Outcome (readMembers (fuel + 1) d first t) (∀ m ∈ (key, x) :: ms, m.2.depth ≤ d)
      ((key, x) :: ms) rest := by
  have hread : readMembers (fuel + 1) d first t = readValue fuel d s >>= fun p =>
      readMembers fuel d false p.2 >>= fun q => .ok ((key, p.1) :: q.1, q.2) := by
    rw [readMembers, hnext]
    change (readColon s' >>= _) = _
    rw [hcolon]
    rfl
  rw [hread]
  have h := hx.bind
    (f := fun p => readMembers fuel d false p.2 >>= fun q => .ok ((key, p.1) :: q.1, q.2))
    (hms.bind (.of_ok trivial rfl))
  exact h.of_iff (by rw [List.forall_mem_cons, and_true])

theorem readValue_space (hg : IsSpace g) (fuel d : Nat) (s : List Char) :
    readValue (fuel + 1) d (g ++ s) = readValue (fuel + 1) d s := by
  rw [readValue, readValue, skipSpace_append hg]

theorem readValue_quote (fuel d : Nat) (s : List Char) :
    readValue (fuel + 1) d ('"' :: s) = readString s >>= fun p => .ok (.str p.1, p.2) := rfl

theorem short_of_isNumber (h : v.IsNumber) : v.IsScalar ∧ v.Short := by
  cases h with
  | int h => exact ⟨trivial, h⟩
  | float x => exact ⟨trivial, short_of_not_int fun n h => by contradiction⟩

/-- A word stands for a scalar, and an integer among them has at most 64 bits. -/
theorem short_of_wordValue {w : List Char} (h : wordValue? w = some v) : v.IsScalar ∧ v.Short := by
  have hread := wordValue?_eq_some.1 h
  rw [readValue] at hread
  split at hread
  · contradiction
  · obtain ⟨⟨_, _⟩, -, hread⟩ := bind_eq_ok.1 hread
    cases hread
    exact ⟨trivial, short_of_not_int fun n h => by contradiction⟩
  · contradiction
  · contradiction
  · exact short_of_isNumber (isNumber_of_readNumber hread)
  · obtain ⟨_, -, hread⟩ := bind_eq_ok.1 hread
    cases hread
    exact ⟨trivial, short_of_not_int fun n h => by contradiction⟩
  · obtain ⟨_, -, hread⟩ := bind_eq_ok.1 hread
    cases hread
    exact ⟨trivial, short_of_not_int fun n h => by contradiction⟩
  · obtain ⟨_, -, hread⟩ := bind_eq_ok.1 hread
    cases hread
    exact ⟨trivial, short_of_not_int fun n h => by contradiction⟩
  · split at hread
    · exact short_of_isNumber (isNumber_of_readNumber hread)
    · contradiction

theorem depth_of_wordValue {w : List Char} (h : wordValue? w = some v) : v.depth = 0 :=
  depth_of_isScalar (short_of_wordValue h).1

/-- A text that spells a part of a document is read as that part, in front of any other text. -/
def Reads (s : List Char) : Part → Prop
  | .value e => ∀ v, e.value? = some v → ∀ fuel d rest, s.length ≤ fuel → Delimited rest →
    Outcome (readValue fuel d (s ++ rest)) (v.depth ≤ d) v rest
  | .items es => ∀ vs, itemValues? es = some vs → ∀ fuel d first t rest, s.length ≤ fuel →
    Leads first t (s ++ rest) → Outcome (readItems fuel d first t) (∀ v ∈ vs, v.depth ≤ d) vs rest
  | .moreItems es => ∀ vs, itemValues? es = some vs → ∀ fuel d g rest, s.length ≤ fuel → IsSpace g →
    Outcome (readItems fuel d false (g ++ (s ++ rest))) (∀ v ∈ vs, v.depth ≤ d) vs rest
  | .members es => ∀ ms, memberValues? es = some ms → ∀ fuel d first t rest, s.length ≤ fuel →
    Leads first t (s ++ rest) → Outcome (readMembers fuel d first t) (∀ m ∈ ms, m.2.depth ≤ d) ms rest
  | .moreMembers es => ∀ ms, memberValues? es = some ms → ∀ fuel d g rest, s.length ≤ fuel → IsSpace g →
    Outcome (readMembers fuel d false (g ++ (s ++ rest))) (∀ m ∈ ms, m.2.depth ≤ d) ms rest

theorem reads_of_spells {p : Part} (h : Spells .strict s p) : Reads s p := by
  -- each bracket, comma, key and scalar pays with a character for the unit of fuel it takes
  induction h with
  | word hw =>
    intro v hv fuel d rest hfuel hr
    have hpos := List.length_pos_iff.2 hw.1
    obtain ⟨fuel, rfl⟩ : ∃ k, fuel = k + 1 := ⟨fuel - 1, by omega⟩
    have hread := readValue_word hw hv fuel d hr
    exact .of_ok (depth_of_wordValue hv ▸ Nat.zero_le d) hread
  | @text b hb =>
    intro v hv fuel d rest hfuel hr
    obtain ⟨fuel, rfl⟩ : ∃ k, fuel = k + 1 := ⟨fuel - 1, by grind⟩
    obtain ⟨key, hkey, rfl⟩ := value?_text.1 hv
    refine .of_ok (Nat.zero_le d) ?_
    rw [List.cons_append, List.append_assoc, List.singleton_append, readValue_quote,
      readString_of_value hkey]
    rfl
  | @emptyList g hg =>
    intro v hv fuel d rest hfuel hr
    obtain ⟨fuel, rfl⟩ : ∃ k, fuel = k + 2 := ⟨fuel - 2, by grind⟩
    obtain ⟨vs, hvs, rfl⟩ := value?_list.1 hv
    cases hvs
    rw [List.cons_append, List.append_assoc, List.singleton_append]
    refine outcome_arr fun d => .of_ok (by simp) ?_
    rw [readItems, nextItem_end hg]
    rfl
  | list hg _ ih =>
    intro v hv fuel d rest hfuel hr
    rw [List.length_cons, List.length_append] at hfuel
    obtain ⟨fuel, rfl⟩ : ∃ k, fuel = k + 1 := ⟨fuel - 1, by omega⟩
    obtain ⟨vs, hvs, rfl⟩ := value?_list.1 hv
    rw [List.cons_append, List.append_assoc]
    exact outcome_arr fun d => ih vs hvs fuel d true _ rest (by omega) (.first hg)
  | @emptyRecord g hg =>
    intro v hv fuel d rest hfuel hr
    obtain ⟨fuel, rfl⟩ : ∃ k, fuel = k + 2 := ⟨fuel - 2, by grind⟩
    obtain ⟨ms, hms, rfl⟩ := value?_record.1 hv
    cases hms
    rw [List.cons_append, List.append_assoc, List.singleton_append]
    refine outcome_obj fun d => .of_ok (by simp) ?_
    rw [readMembers, nextKey_end hg]
    rfl
  | record hg _ ih =>
    intro v hv fuel d rest hfuel hr
    rw [List.length_cons, List.length_append] at hfuel
    obtain ⟨fuel, rfl⟩ : ∃ k, fuel = k + 1 := ⟨fuel - 1, by omega⟩
    obtain ⟨ms, hms, rfl⟩ := value?_record.1 hv
    rw [List.cons_append, List.append_assoc]
    exact outcome_obj fun d => ih ms hms fuel d true _ rest (by omega) (.first hg)
  | item hs hg ht ihs iht =>
    intro vs hvs fuel d first t rest hfuel hleads
    have hspos := hs.pos
    have htpos := ht.pos
    simp only [List.length_append] at hfuel
    obtain ⟨fuel, rfl⟩ : ∃ k, fuel = k + 1 := ⟨fuel - 1, by omega⟩
    obtain ⟨x, xs, hx, hxs, rfl⟩ := itemValues?_cons.1 hvs
    rw [List.append_assoc, List.append_assoc] at hleads
    exact outcome_items (nextItem_of_leads hleads (hs.starts.append _))
      (ihs x hx fuel d _ (by omega) ((ht.delimited_moreItems rest).space_append hg))
      (iht xs hxs fuel d _ rest (by omega) hg)
  | lastItem =>
    intro vs hvs fuel d g rest hfuel hg
    obtain ⟨fuel, rfl⟩ : ∃ k, fuel = k + 1 := ⟨fuel - 1, by grind⟩
    cases hvs
    refine .of_ok (by simp) ?_
    rw [readItems, List.singleton_append, nextItem_end hg]
    rfl
  | trailingItem htrail => exact htrail.elim
  | nextItem hg _ ih =>
    intro vs hvs fuel d g rest hfuel hg'
    rw [List.length_cons, List.length_append] at hfuel
    rw [List.cons_append, List.append_assoc]
    exact ih vs hvs fuel d false _ rest (by omega) (.more hg' hg)
  | @member k g₁ g₂ s g₃ t e es hk hg₁ hg₂ hs hg₃ ht ihs iht =>
    intro ms hms fuel d first u rest hfuel hleads
    have hspos := hs.pos
    simp only [List.length_append, List.length_cons] at hfuel
    obtain ⟨fuel, rfl⟩ : ∃ k, fuel = k + 2 := ⟨fuel - 2, by omega⟩
    obtain ⟨key, x, xs, hkey, hx, hxs, rfl⟩ := memberValues?_cons.1 hms
    simp only [List.cons_append, List.append_assoc] at hleads
    have hvalue := ihs x hx (fuel + 1) d (g₃ ++ (t ++ rest)) (by omega)
      ((ht.delimited_moreMembers rest).space_append hg₃)
    rw [← readValue_space hg₂] at hvalue
    exact outcome_members (nextKey_of_leads hkey hleads) (readColon_eq_ok.2 ⟨g₁, hg₁, rfl⟩) hvalue
      (iht xs hxs (fuel + 1) d g₃ rest (by omega) hg₃)
  | extra _ hx => exact hx.elim
  | bare _ hx => exact hx.elim
  | lastMember =>
    intro ms hms fuel d g rest hfuel hg
    obtain ⟨fuel, rfl⟩ : ∃ k, fuel = k + 1 := ⟨fuel - 1, by grind⟩
    cases hms
    refine .of_ok (by simp) ?_
    rw [readMembers, List.singleton_append, nextKey_end hg]
    rfl
  | trailingMember htrail => exact htrail.elim
  | nextMember hg _ ih =>
    intro ms hms fuel d g rest hfuel hg'
    rw [List.length_cons, List.length_append] at hfuel
    rw [List.cons_append, List.append_assoc]
    exact ih ms hms fuel d false _ rest (by omega) (.more hg' hg)

/-! ### What is read is spelled -/

/-- The text of a value that was read, with the blanks in front of it. -/
def SpelledValue (d : Nat) (s : List Char) (v : Json) (rest : List Char) : Prop :=
  ∃ g t e, s = g ++ (t ++ rest) ∧ IsSpace g ∧ Spells .strict t (.value e) ∧ e.value? = some v ∧ v.depth ≤ d

/-- The text of elements that were read, up to and with the closing bracket. -/
def SpelledItems (d : Nat) (first : Bool) (s : List Char) (vs : List Json) (rest : List Char) : Prop :=
  (vs = [] ∧ ∃ g, IsSpace g ∧ s = g ++ ']' :: rest) ∨
    ∃ t es, Leads first s (t ++ rest) ∧ Spells .strict t (.items es) ∧ itemValues? es = some vs ∧
      ∀ v ∈ vs, v.depth ≤ d

/-- The text of members that were read, up to and with the closing brace. -/
def SpelledMembers (d : Nat) (first : Bool) (s : List Char) (ms : Members) (rest : List Char) : Prop :=
  (ms = [] ∧ ∃ g, IsSpace g ∧ s = g ++ '\x7d' :: rest) ∨
    ∃ t es, Leads first s (t ++ rest) ∧ Spells .strict t (.members es) ∧ memberValues? es = some ms ∧
      ∀ m ∈ ms, m.2.depth ≤ d

theorem spelledValue_word {c : Char} (hc : isWordChar c = true) (hs : skipSpace s = c :: t)
    (h : readValue (fuel + 1) d s = .ok (v, rest)) : SpelledValue d s v rest := by
  obtain ⟨g, hg, htext⟩ := exists_skipSpace s
  rw [htext, readValue_space hg, hs] at h
  obtain ⟨w, hw, hword, hvalue⟩ := exists_word hc h
  refine ⟨g, w, .word w, ?_, hg, .word hword, hvalue, depth_of_wordValue hvalue ▸ Nat.zero_le d⟩
  rw [← hw, ← hs, ← htext]

theorem spelledValue_arr (hg : IsSpace g) (h : SpelledItems d true s xs rest) :
    SpelledValue (d + 1) (g ++ '[' :: s) (.arr xs) rest := by
  obtain ⟨rfl, g', hg', rfl⟩ | ⟨t, es, hleads, ht, hes, hdepth⟩ := h
  · exact ⟨g, _, .list [], by simp, hg, .emptyList hg', rfl, depth_arr_le.2 (by simp)⟩
  · obtain ⟨hg'⟩ := hleads
    refine ⟨g, _, .list es, by simp, hg, .list hg' ht, ?_, depth_arr_le.2 hdepth⟩
    exact value?_list.2 ⟨xs, hes, rfl⟩

theorem spelledValue_obj (hg : IsSpace g) (h : SpelledMembers d true s ms rest) :
    SpelledValue (d + 1) (g ++ '\x7b' :: s) (.obj ms) rest := by
  obtain ⟨rfl, g', hg', rfl⟩ | ⟨t, es, hleads, ht, hes, hdepth⟩ := h
  · exact ⟨g, _, .record [], by simp, hg, .emptyRecord hg', rfl, depth_obj_le.2 (by simp)⟩
  · obtain ⟨hg'⟩ := hleads
    refine ⟨g, _, .record es, by simp, hg, .record hg' ht, ?_, depth_obj_le.2 hdepth⟩
    exact value?_record.2 ⟨ms, hes, rfl⟩

theorem SpelledItems.more (h : SpelledItems d false s xs rest) : ∃ g t es, s = g ++ (t ++ rest) ∧
    IsSpace g ∧ Spells .strict t (.moreItems es) ∧ itemValues? es = some xs ∧ ∀ v ∈ xs, v.depth ≤ d := by
  obtain ⟨rfl, g, hg, rfl⟩ | ⟨t, es, hleads, ht, hes, hdepth⟩ := h
  · exact ⟨g, [']'], [], rfl, hg, .lastItem, rfl, by simp⟩
  · cases hleads with
    | @more g g' _ hg hg' => exact ⟨g, _, es, by simp, hg, .nextItem hg' ht, hes, hdepth⟩

theorem SpelledMembers.more (h : SpelledMembers d false s ms rest) : ∃ g t es, s = g ++ (t ++ rest) ∧
    IsSpace g ∧ Spells .strict t (.moreMembers es) ∧ memberValues? es = some ms ∧
      ∀ m ∈ ms, m.2.depth ≤ d := by
  obtain ⟨rfl, g, hg, rfl⟩ | ⟨t, es, hleads, ht, hes, hdepth⟩ := h
  · exact ⟨g, ['\x7d'], [], rfl, hg, .lastMember, rfl, by simp⟩
  · cases hleads with
    | @more g g' _ hg hg' => exact ⟨g, _, es, by simp, hg, .nextMember hg' ht, hes, hdepth⟩

/-- Whatever is taken spells what is read. -/
theorem spelled_of_read (fuel : Nat) :
    (∀ d s v rest, readValue fuel d s = .ok (v, rest) → SpelledValue d s v rest) ∧
      (∀ d first s xs rest, readItems fuel d first s = .ok (xs, rest) → SpelledItems d first s xs rest) ∧
      ∀ d first s ms rest, readMembers fuel d first s = .ok (ms, rest) →
        SpelledMembers d first s ms rest := by
  induction fuel with
  | zero => refine ⟨?_, ?_, ?_⟩ <;> intros <;> contradiction
  | succ fuel ih =>
    obtain ⟨hvalue, hitems, hmembers⟩ := ih
    refine ⟨fun d s v rest h => ?_, fun d first s xs rest h => ?_, fun d first s ms rest h => ?_⟩
    · have hread := h
      obtain ⟨g, hg, hs⟩ := exists_skipSpace s
      rw [readValue] at h
      split at h
      · contradiction
      · next heq =>
        obtain ⟨⟨key, _⟩, hkey, h⟩ := bind_eq_ok.1 h
        cases h
        obtain ⟨b, hrest, hb, hvalue⟩ := exists_body_of_readString hkey
        refine ⟨g, _, .text b, ?_, hg, .text hb, value?_text.2 ⟨key, hvalue, rfl⟩, Nat.zero_le d⟩
        rw [hs, heq, hrest]
        simp
      · next heq =>
        rw [hs, heq]
        split at h
        · contradiction
        · obtain ⟨_, hxs, h⟩ := bind_eq_ok.1 h
          cases h
          exact spelledValue_arr hg (hitems _ _ _ _ _ hxs)
      · next heq =>
        rw [hs, heq]
        split at h
        · contradiction
        · obtain ⟨_, hms, h⟩ := bind_eq_ok.1 h
          cases h
          exact spelledValue_obj hg (hmembers _ _ _ _ _ hms)
      · next heq => exact spelledValue_word rfl heq hread
      · next heq => exact spelledValue_word rfl heq hread
      · next heq => exact spelledValue_word rfl heq hread
      · next heq => exact spelledValue_word rfl heq hread
      · next heq =>
        split at h
        · next hdigit => exact spelledValue_word (isWordChar_of_isAsciiDigit hdigit) heq hread
        · contradiction
    · rw [readItems] at h
      obtain ⟨⟨more, s'⟩, hmore, h⟩ := bind_eq_ok.1 h
      dsimp only at h
      obtain ⟨rfl, hleads⟩ | ⟨rfl, g, r, hg, rfl, rfl⟩ := nextItem_cases hmore
      · obtain ⟨⟨x, u⟩, hx, h⟩ := bind_eq_ok.1 h
        obtain ⟨⟨xs, _⟩, hxs, h⟩ := bind_eq_ok.1 h
        cases h
        obtain ⟨g₁, t₁, e, rfl, hg₁, ht₁, he, hdepth⟩ := hvalue _ _ _ _ hx
        obtain ⟨g₂, t₂, es, rfl, hg₂, ht₂, hes, hdepths⟩ := (hitems _ _ _ _ _ hxs).more
        refine .inr ⟨_, e :: es, ?_, .item ht₁ hg₂ ht₂, itemValues?_cons.2 ⟨x, xs, he, hes, rfl⟩,
          List.forall_mem_cons.2 ⟨hdepth, hdepths⟩⟩
        simpa using hleads.absorb hg₁
      · cases h
        exact .inl ⟨rfl, g, hg, rfl⟩
    · rw [readMembers] at h
      obtain ⟨⟨key, s'⟩, hkey, h⟩ := bind_eq_ok.1 h
      obtain ⟨k, name, rfl, hk, hname, hleads⟩ | ⟨rfl, g, r, hg, rfl, rfl⟩ := nextKey_cases hkey
      · obtain ⟨s'', hcolon, h⟩ := bind_eq_ok.1 h
        obtain ⟨⟨x, u⟩, hx, h⟩ := bind_eq_ok.1 h
        obtain ⟨⟨xs, _⟩, hxs, h⟩ := bind_eq_ok.1 h
        cases h
        obtain ⟨g₁, hg₁, rfl⟩ := readColon_eq_ok.1 hcolon
        obtain ⟨g₂, t₂, e, rfl, hg₂, ht₂, he, hdepth⟩ := hvalue _ _ _ _ hx
        obtain ⟨g₃, t₃, es, rfl, hg₃, ht₃, hes, hdepths⟩ := (hmembers _ _ _ _ _ hxs).more
        refine .inr ⟨_, (k, e) :: es, ?_, .member hk hg₁ hg₂ ht₂ hg₃ ht₃,
          memberValues?_cons.2 ⟨name, x, xs, hname, he, hes, rfl⟩,
          List.forall_mem_cons.2 ⟨hdepth, hdepths⟩⟩
        simpa using hleads
      · cases h
        exact .inl ⟨rfl, g, hg, rfl⟩

/-! ### Documents -/

theorem readRaw_of_spells {e : Document} (h : Spells .strict s (.value e)) (hv : e.value? = some v)
    (hg : IsSpace g) (hr : Delimited rest) (d : Nat) :
    Outcome (readRaw d (g ++ (s ++ rest))) (v.depth ≤ d) v rest := by
  rw [readRaw, readValue_space hg]
  refine reads_of_spells h v hv _ d rest ?_ hr
  simp only [List.length_append]
  omega

theorem delimited_of_isSpace (hg : IsSpace g) : Delimited g := by
  have h := delimited_nil.space_append hg
  rwa [List.append_nil] at h

/-- A text that spells a document is read as its tree, with repeated keys merged, unless it is too deep. -/
theorem parse_of_whole {e : Document} {u : Json} (h : Style.strict.Whole s e) (hu : e.value? = some u) :
    parse s = .ok v ↔ u.depth ≤ depthLimit ∧ u.merged = v := by
  obtain ⟨g, t, g', rfl, hg, hg', ht⟩ := h
  have hout := readRaw_of_spells ht hu hg (delimited_of_isSpace hg') depthLimit
  have hskip : skipSpace g' = [] := by
    have hspace := skipSpace_append hg' []
    rwa [List.append_nil] at hspace
  by_cases hdepth : u.depth ≤ depthLimit
  · have hparse : parse (g ++ (t ++ g')) = .ok u.merged := by
      rw [parse, readDocument, readTree, hout.1 hdepth]
      simp only [bind, Except.bind, hskip]
    rw [hparse, and_iff_right hdepth]
    exact ⟨Except.ok.inj, congrArg _⟩
  · obtain ⟨left, hleft⟩ := hout.2 hdepth
    rw [parse, readDocument, readTree, hleft]
    exact ⟨fun h => by contradiction, fun h => absurd h.1 hdepth⟩

/-- Exactly the texts that spell a document with a tree are read. -/
theorem parse_eq_ok : parse s = .ok v ↔
    ∃ e u, Style.strict.Whole s e ∧ e.value? = some u ∧ u.depth ≤ depthLimit ∧ u.merged = v := by
  refine ⟨fun h => ?_, fun ⟨e, u, hs, hu, h⟩ => (parse_of_whole hs hu).2 h⟩
  rw [parse, readDocument] at h
  split at h
  · contradiction
  · next w rest hread =>
    obtain ⟨⟨u, _⟩, hu, hread⟩ := bind_eq_ok.1 hread
    cases hread
    obtain ⟨g, t, e, rfl, hg, ht, he, hdepth⟩ := (spelled_of_read _).1 _ _ _ _ hu
    split at h
    · next hskip =>
      cases h
      obtain ⟨g', hg', hrest⟩ := exists_skipSpace rest
      rw [hskip, List.append_nil] at hrest
      exact ⟨e, u, ⟨g, t, rest, rfl, hg, hrest ▸ hg', ht⟩, he, hdepth, rfl⟩
    · contradiction

end Json
end MockRedirect
