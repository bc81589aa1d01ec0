import MockRedirect.Proofs.PathText
/-! The notation of paths as a grammar. Exactly the texts of the grammar are read as paths, and a path that has been
read is read again from the text that is shown for it. -/
namespace MockRedirect.FieldPath
open Text

variable {ds name s t : List Char} {i : Nat} {is : List Nat} {p q ss : FieldPath} {first : Bool} {text : String}

/-! ### The grammar -/

/-- Decimal digits for a number of 64 bits, perhaps with a plus sign in front. -/
def SpellsIndex (t : List Char) (i : Nat) : Prop :=
  ∃ ds, (t = ds ∨ t = '+' :: ds) ∧ ds ≠ [] ∧ (∀ c ∈ ds, isAsciiDigit c = true) ∧ decimal ds = i ∧ i < Nat.pow 2 64

/-- Any number of indices, each of them in brackets. -/
inductive SpellsIndices : List Char → List Nat → Prop
  | nil : SpellsIndices [] []
  | cons {t s : List Char} {i : Nat} {is : List Nat} (index : SpellsIndex t i) (rest : SpellsIndices s is) :
      SpellsIndices ('[' :: t ++ ']' :: s) (i :: is)

/-- What stands between two dots: a name and the indices behind it. The first part may consist of indices alone. -/
inductive SpellsPart : Bool → List Char → FieldPath → Prop
  | named {first : Bool} {name t : List Char} {is : List Nat} (hne : name ≠ []) (hname : '[' ∉ name)
      (indices : SpellsIndices t is) : SpellsPart first (name ++ t) (.key (String.ofList name) :: is.map .index)
  | bare {t : List Char} {is : List Nat} (hne : is ≠ []) (indices : SpellsIndices t is) :
      SpellsPart true t (is.map .index)

/-- Parts with dots between them. -/
inductive Spells : Bool → List Char → FieldPath → Prop
  | last {first : Bool} {t : List Char} {p : FieldPath} (hdot : '.' ∉ t) (part : SpellsPart first t p) :
      Spells first t p
  | more {first : Bool} {t s : List Char} {p q : FieldPath} (hdot : '.' ∉ t) (part : SpellsPart first t p)
      (rest : Spells false s q) : Spells first (t ++ '.' :: s) (p ++ q)

/-! ### Indices -/

theorem readInt?_bind_eq_some (ds : List Char) :
    (((if ds ≠ [] ∧ ds.all isAsciiDigit then some (decimal ds) else none).map Int.ofNat).bind fun n =>
      if n < Nat.pow 2 64 then some n.toNat else none) = some i ↔
    ds ≠ [] ∧ (∀ c ∈ ds, isAsciiDigit c = true) ∧ decimal ds = i ∧ i < Nat.pow 2 64 := by
  by_cases hds : ds ≠ [] ∧ ds.all isAsciiDigit = true
  · rw [if_pos hds, Option.map_some, Option.bind_some, ← and_assoc, and_iff_right ⟨hds.1, List.all_eq_true.1 hds.2⟩]
    simp only [Int.ofNat_eq_natCast, Int.toNat_natCast, Option.ite_none_right_eq_some, Option.some.injEq]
    constructor
    · rintro ⟨h, rfl⟩
      exact ⟨rfl, Int.ofNat_lt.1 h⟩
    · rintro ⟨rfl, h⟩
      exact ⟨Int.ofNat_lt.2 h, rfl⟩
  · rw [if_neg hds]
    simp only [Option.map_none, Option.bind_none, reduceCtorEq, false_iff]
    exact fun ⟨hne, hall, _⟩ => hds ⟨hne, List.all_eq_true.2 hall⟩

/-- A number is read exactly if it is written in digits, and then it is the value of these. -/
theorem readNat64?_eq_some : readNat64? t = some i ↔ SpellsIndex t i := by
  unfold SpellsIndex
  cases t with
  | nil => simp [readNat64?, readInt?]
  | cons c t =>
    by_cases hminus : c = '-'
    · subst hminus
      refine ⟨fun h => by contradiction, ?_⟩
      rintro ⟨ds, rfl | h, -, hds, -⟩
      · exact absurd (hds _ List.mem_cons_self) (by decide)
      · exact absurd (List.cons.inj h).1 (by decide)
    · by_cases hplus : c = '+'
      · subst hplus
        refine (readInt?_bind_eq_some t).trans ⟨fun h => ⟨t, .inr rfl, h⟩, ?_⟩
        rintro ⟨ds, rfl | h, hds⟩
        · exact absurd (hds.2.1 _ List.mem_cons_self) (by decide)
        · rwa [(List.cons.inj h).2]
      · have hdigits : (∃ ds, (c :: t = ds ∨ c :: t = '+' :: ds) ∧ ds ≠ [] ∧ (∀ c ∈ ds, isAsciiDigit c = true) ∧
            decimal ds = i ∧ i < Nat.pow 2 64) ↔ _ :=
          ⟨fun ⟨ds, h, hds⟩ => (h.resolve_right fun h => hplus (List.cons.inj h).1) ▸ hds,
            fun h => ⟨c :: t, .inl rfl, h⟩⟩
        rw [hdigits, ← readInt?_bind_eq_some]
        unfold readNat64? readInt?
        split
        · next heq => exact absurd (List.cons.inj heq).1 hminus
        · split
          · next heq => exact absurd (List.cons.inj heq).1 hminus
          · next heq => exact absurd (List.cons.inj heq).1 hplus
          · rfl

theorem SpellsIndex.notMem_bracket (h : SpellsIndex t i) : ']' ∉ t := by
  obtain ⟨ds, rfl | rfl, -, hds, -⟩ := h
  · exact fun hmem => absurd (hds _ hmem) (by decide)
  · rw [List.mem_cons, not_or]
    exact ⟨by decide, fun hmem => absurd (hds _ hmem) (by decide)⟩

theorem index?_eq_some {g : Segment} : index? t = some g ↔ ∃ ds i, t = '[' :: ds ∧ SpellsIndex ds i ∧ g = .index i := by
  unfold index?
  split
  · next digits =>
    rw [Option.map_eq_some_iff]
    constructor
    · rintro ⟨i, hi, rfl⟩
      exact ⟨digits, i, rfl, readNat64?_eq_some.1 hi, rfl⟩
    · rintro ⟨ds, i, heq, hi, rfl⟩
      obtain rfl := (List.cons.inj heq).2
      exact ⟨i, readNat64?_eq_some.2 hi, rfl⟩
  · next hopen =>
    refine ⟨fun h => by contradiction, ?_⟩
    rintro ⟨ds, i, rfl, -⟩
    exact absurd rfl (hopen ds)

/-- The pieces between closing brackets, if the last of them is empty. -/
theorem spellsIndices_of_pieces {ps : List (List Char)} (h : ps.mapM index? = some ss) :
    ∃ is, SpellsIndices (ps.flatMap (· ++ [']'])) is ∧ ss = is.map .index := by
  induction ps generalizing ss with
  | nil =>
    cases h
    exact ⟨[], .nil, rfl⟩
  | cons piece ps ih =>
    rw [List.mapM_cons] at h
    obtain ⟨g, hg, h⟩ := Option.bind_eq_some_iff.1 h
    obtain ⟨gs, hgs, h⟩ := Option.bind_eq_some_iff.1 h
    cases h
    obtain ⟨ds, i, rfl, hi, rfl⟩ := index?_eq_some.1 hg
    obtain ⟨is, his, rfl⟩ := ih hgs
    refine ⟨i :: is, ?_, rfl⟩
    rw [List.flatMap_cons, List.append_assoc]
    exact .cons hi his

theorem SpellsIndices.split_eq (h : SpellsIndices t is) :
    ∃ ps, split ']' t = ps ++ [[]] ∧ ps.mapM index? = some (is.map .index) := by
  induction h with
  | nil => exact ⟨[], rfl, rfl⟩
  | @cons ds s i is hi _ ih =>
    obtain ⟨ps, hsplit, hps⟩ := ih
    have hclose : ']' ∉ '[' :: ds := by
      rw [List.mem_cons, not_or]
      exact ⟨by decide, hi.notMem_bracket⟩
    refine ⟨('[' :: ds) :: ps, ?_, ?_⟩
    · rw [split_append_cons hclose, hsplit, List.cons_append]
    · rw [List.mapM_cons, index?_eq_some.2 ⟨ds, i, rfl, hi, rfl⟩, hps]
      rfl

theorem indices?_eq_some : indices? t = some ss ↔ ∃ is, SpellsIndices t is ∧ ss = is.map .index := by
  constructor
  · intro h
    by_cases ht : t = []
    · subst ht
      cases (if_pos rfl).symm.trans h
      exact ⟨[], .nil, rfl⟩
    · rw [indices?_eq ht] at h
      split at h
      · next hlast =>
        have hjoin := join_split ']' t
        rw [← List.dropLast_append_getLast? _ hlast, join_append_cons] at hjoin
        obtain ⟨is, his, rfl⟩ := spellsIndices_of_pieces h
        refine ⟨is, ?_, rfl⟩
        rwa [← hjoin, List.flatMap_nil, List.append_nil, List.append_nil]
      · contradiction
  · rintro ⟨is, his, rfl⟩
    by_cases ht : t = []
    · subst ht
      cases his
      rfl
    · obtain ⟨ps, hsplit, hps⟩ := his.split_eq
      rw [indices?_eq ht, hsplit, List.getLast?_concat, if_pos rfl, List.dropLast_concat, hps]

theorem SpellsIndices.ne_nil_iff (h : SpellsIndices t is) : t ≠ [] ↔ is ≠ [] := by
  cases h <;> simp

theorem SpellsIndices.head? (h : SpellsIndices t is) : ∀ c ∈ t.head?, c = '[' := by
  cases h with
  | nil => exact nofun
  | cons _ _ =>
    rintro _ ⟨⟩
    rfl

/-! ### Parts -/

theorem part?_eq_some : part? first t = some p ↔ SpellsPart first t p := by
  constructor
  · intro h
    rw [part?] at h
    have hspan : t.takeWhile (· ≠ '[') ++ t.dropWhile (· ≠ '[') = t := List.takeWhile_append_dropWhile
    split at h
    · next hname =>
      split at h
      · next hrest =>
        simp only [Bool.and_eq_true, decide_eq_true_eq] at hrest
        obtain ⟨rfl, hne⟩ := hrest
        obtain ⟨is, his, rfl⟩ := indices?_eq_some.1 h
        rw [hname, List.nil_append] at hspan
        rw [hspan] at his hne
        exact .bare (his.ne_nil_iff.1 hne) his
      · contradiction
    · next hname =>
      obtain ⟨gs, hgs, rfl⟩ := Option.map_eq_some_iff.1 h
      obtain ⟨is, his, rfl⟩ := indices?_eq_some.1 hgs
      have hopen : '[' ∉ t.takeWhile (· ≠ '[') := fun hmem => by simpa using List.mem_takeWhile_imp hmem
      have hpart := @SpellsPart.named first _ _ _ hname hopen his
      rwa [hspan] at hpart
  · intro h
    cases h with
    | named hne hname his =>
      obtain ⟨htake, hdrop⟩ := span_name hname his.head?
      rw [part?, htake, hdrop, if_neg hne, indices?_eq_some.2 ⟨_, his, rfl⟩]
      rfl
    | bare hne his =>
      obtain ⟨htake, hdrop⟩ := span_name List.not_mem_nil his.head?
      rw [List.nil_append] at htake hdrop
      rw [part?, htake, hdrop, if_pos rfl, if_pos (by simpa using his.ne_nil_iff.2 hne),
        indices?_eq_some.2 ⟨_, his, rfl⟩]

/-! ### Paths -/

theorem spells_of_parts {ts : List (List Char)} (hne : ts ≠ []) (hdot : ∀ t ∈ ts, '.' ∉ t)
    (h : parts? first ts = some p) : Spells first (join ['.'] ts) p := by
  induction ts generalizing first p with
  | nil => contradiction
  | cons t ts ih =>
    rw [List.forall_mem_cons] at hdot
    obtain ⟨segments, hsegments, h⟩ := Option.bind_eq_some_iff.1 h
    obtain ⟨rest, hrest, h⟩ := Option.bind_eq_some_iff.1 h
    cases h
    cases ts with
    | nil =>
      cases hrest
      rw [List.append_nil]
      exact .last hdot.1 (part?_eq_some.1 hsegments)
    | cons u ts =>
      have hmore := Spells.more hdot.1 (part?_eq_some.1 hsegments) (ih (List.cons_ne_nil u ts) hdot.2 hrest)
      rwa [join, List.append_assoc, List.singleton_append]
      exact List.cons_ne_nil u ts

theorem Spells.parts_eq (h : Spells first t p) : parts? first (split '.' t) = some p := by
  induction h with
  | last hdot part =>
    rw [split_of_notMem hdot, parts?, part?_eq_some.2 part, parts?]
    simp
  | more hdot part _ ih =>
    rw [split_append_cons hdot, parts?, part?_eq_some.2 part, ih]
    rfl

theorem parse_eq_ok : parse text = .ok p ↔ Spells true text.toList p := by
  rw [parse]
  constructor
  · intro h
    split at h
    · next hparts =>
      cases h
      rw [← join_split '.' text.toList]
      exact spells_of_parts (split_ne_nil '.' _) (fun t ht hdot => (mem_of_mem_split ht hdot).2 rfl) hparts
    · contradiction
  · intro h
    rw [h.parts_eq]

theorem parse_ne_nil (h : parse text = .ok p) : p ≠ [] := by
  have hpart {first : Bool} {t : List Char} {p : FieldPath} (h : SpellsPart first t p) : p ≠ [] := by
    cases h with
    | named _ _ _ => exact List.cons_ne_nil _ _
    | bare hne _ => simpa using hne
  have hspells := parse_eq_ok.1 h
  generalize text.toList = t at hspells
  cases hspells with
  | last _ part => exact hpart part
  | more _ part _ => exact List.append_ne_nil_of_left_ne_nil (hpart part) _

/-- Exactly the texts of the grammar are read, as the segments that they spell; any other is refused with the text
in the message. What has been read is read again from the text that is shown for it, and so is every path whose keys
are neither empty nor have a dot or an opening bracket in them, and whose indices have no more than 64 bits. -/
theorem parse_spells :
    (∀ text p, parse text = .ok p ↔ Spells true text.toList p) ∧
      (∀ text, (¬∃ p, Spells true text.toList p) → parse text = .error (.noField text)) ∧
      (∀ text p, parse text = .ok p → parse (FieldPath.text p) = .ok p) ∧
      ∀ p, p ≠ [] → IsPlain p → parse (FieldPath.text p) = .ok p := by
  refine ⟨fun text p => parse_eq_ok, fun text h => ?_, fun text p h => ?_, fun p => parse_text⟩
  · have hread (p : FieldPath) : parse text ≠ .ok p := fun hp => h ⟨p, parse_eq_ok.1 hp⟩
    rw [parse] at hread ⊢
    split
    · next hparts =>
      rw [hparts] at hread
      exact absurd rfl (hread _)
    · rfl
  · exact parse_text (parse_ne_nil h) (isPlain_of_parse h)

/-- A plus sign, zeros in front, a closing bracket in a name, and the largest index. -/
theorem parse_spells_odd :
    Spells true "[+007].a]b[0][18446744073709551615]".toList
        [.index 7, .key "a]b", .index 0, .index 18446744073709551615] ∧
      parse "[7].a]b[0][18446744073709551615]" = .ok [.index 7, .key "a]b", .index 0, .index 18446744073709551615] ∧
      (¬∃ p, Spells true "a[18446744073709551616]".toList p) ∧
      parse "a[18446744073709551616]" = .error (.noField "a[18446744073709551616]") := by
  obtain ⟨hspells, hrefused, hagain, -⟩ := parse_spells
  have hparse : parse "[+007].a]b[0][18446744073709551615]" =
      .ok [.index 7, .key "a]b", .index 0, .index 18446744073709551615] := by decide +kernel
  have hlarge : ¬∃ p, Spells true "a[18446744073709551616]".toList p := by
    rintro ⟨p, hp⟩
    have herror : parse "a[18446744073709551616]" = .error (.noField "a[18446744073709551616]") := by decide +kernel
    rw [(hspells _ p).2 hp] at herror
    contradiction
  exact ⟨(hspells _ _).1 hparse, hagain _ _ hparse, hlarge, hrefused _ hlarge⟩

end MockRedirect.FieldPath
