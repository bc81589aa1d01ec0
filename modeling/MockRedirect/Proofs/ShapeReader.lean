import MockRedirect.Json.Decoder
import MockRedirect.Proofs.RoundTrip
import MockRedirect.Proofs.Shape
/-! Records that are read from text. A text that spells a tree is read as what the shape makes of the tree,
reader by reader, and whatever is read has the fields of its shape. -/
namespace MockRedirect
open Json Document

/-! ### Texts of one tree -/

namespace Document

variable {e : Document} {s w : List Char} {v : Json} {vs : List Json} {ms : Members} {t : String} {n : Int}

/-- The first character of a word tells which kind of value it stands for. -/
theorem wordValue_cases (hw : IsWord w) (h : wordValue? w = some v) :
    v = .null ∨ (∃ b, v = .bool b) ∨
      (v.IsNumber ∧ ∃ c w', w = c :: w' ∧ (c = '-' ∨ Text.isAsciiDigit c = true)) := by
  obtain ⟨hne, hw⟩ := hw
  cases w with
  | nil => contradiction
  | cons c w =>
    have hc := hw c List.mem_cons_self
    have hread := wordValue?_eq_some.1 h
    rw [readValue, skipSpace_cons (isSpace_of_isWordChar hc)] at hread
    split at hread
    · contradiction
    · next heq =>
      cases heq
      contradiction
    · contradiction
    · contradiction
    · next heq =>
      cases heq
      exact .inr (.inr ⟨isNumber_of_readNumber hread, '-', w, rfl, .inl rfl⟩)
    · obtain ⟨_, -, hread⟩ := bind_eq_ok.1 hread
      cases hread
      exact .inl rfl
    · obtain ⟨_, -, hread⟩ := bind_eq_ok.1 hread
      cases hread
      exact .inr (.inl ⟨true, rfl⟩)
    · obtain ⟨_, -, hread⟩ := bind_eq_ok.1 hread
      cases hread
      exact .inr (.inl ⟨false, rfl⟩)
    · next heq =>
      cases heq
      split at hread
      · next hdigit => exact .inr (.inr ⟨isNumber_of_readNumber hread, c, w, rfl, .inr hdigit⟩)
      · contradiction

theorem exists_body (hs : Spells .strict s (.value e)) (h : e.value? = some (.str t)) :
    ∃ b, s = '"' :: (b ++ ['"']) ∧ stringValue? b = some t := by
  cases hs with
  | word hw => obtain h | ⟨b, h⟩ | ⟨h, -⟩ := wordValue_cases hw h <;> cases h
  | @text b => exact ⟨b, rfl, by simpa [value?] using h⟩
  | _ => simp [value?] at h

theorem exists_digit (hs : Spells .strict s (.value e)) (h : e.value? = some (.int n)) :
    ∃ c r, s = c :: r ∧ (c = '-' ∨ Text.isAsciiDigit c = true) := by
  cases hs with
  | word hw =>
    obtain h | ⟨b, h⟩ | ⟨-, h⟩ := wordValue_cases hw h
    · cases h
    · cases h
    · exact h
  | _ => simp [value?] at h

theorem exists_items (h : e.value? = some (.arr vs)) :
    ∃ es, e = .list es ∧ itemValues? es = some vs := by
  cases e with
  | word => exact (short_of_wordValue h).1.elim
  | list es => exact ⟨es, rfl, by simpa [value?] using h⟩
  | _ => simp [value?] at h

theorem exists_members (h : e.value? = some (.obj ms)) :
    ∃ es, e = .record es ∧ memberValues? es = some ms := by
  cases e with
  | word => exact (short_of_wordValue h).1.elim
  | record es => exact ⟨es, rfl, by simpa [value?] using h⟩
  | _ => simp [value?] at h

end Document

/-! ### Readers and trees -/

/-- Every text that spells the tree `v` is read as `w`, if the tree is not too deep. -/
def Brings (reader : ShapeReader) (v w : Json) : Prop :=
  ∀ e s g rest d, Spells .strict s (.value e) → e.value? = some v → v.depth ≤ d → IsSpace g →
    Delimited rest → reader d (g ++ (s ++ rest)) = .ok (w, rest)

namespace Shape

variable {e : Document} {g s t u rest : List Char} {v w : Json} {vs ws : List Json} {ms : Members}
  {reader : ShapeReader} {shape : Shape} {name : String} {d fuel : Nat} {first : Bool}

/-! ### Scalars -/

theorem skipSpace_spells (hg : IsSpace g) (hs : Spells .strict s (.value e)) (rest : List Char) :
    skipSpace (g ++ (s ++ rest)) = s ++ rest := by
  rw [skipSpace_append hg, (hs.starts.append rest).skipSpace_eq]

theorem readText_spells {t expected : String} (hs : Spells .strict s (.value e))
    (h : e.value? = some (.str t)) (hg : IsSpace g) (rest : List Char) :
    readText expected (g ++ (s ++ rest)) = .ok (t, rest) := by
  rw [readText, skipSpace_spells hg hs]
  obtain ⟨b, rfl, ht⟩ := exists_body hs h
  rw [List.cons_append, List.append_assoc, List.singleton_append]
  exact readString_of_value ht rest

theorem brings_text (t : String) : Brings (read .text) (.str t) (.str t) := by
  intro e s g rest d hs h _ hg _
  rw [read, readText_spells hs h hg]
  rfl

theorem readName_spells {t : String} {known : List String} (ht : t ∈ known)
    (hs : Spells .strict s (.value e)) (h : e.value? = some (.str t)) (hg : IsSpace g) (rest : List Char) :
    readName known (g ++ (s ++ rest)) = .ok (t, rest) := by
  rw [readName, readText_spells hs h hg]
  exact if_pos (List.contains_iff_mem.2 ht)

theorem brings_word {t : String} {known : List String} (ht : t ∈ known) :
    Brings (read (.word known)) (.str t) (.str t) := by
  intro e s g rest d hs h _ hg _
  rw [read, readWordOf, skipSpace_spells hg hs]
  have hname := readName_spells ht hs h isSpace_nil rest
  obtain ⟨b, rfl, -⟩ := exists_body hs h
  exact bind_eq_ok.2 ⟨_, hname, rfl⟩

theorem brings_integer {n low high : Int} (hlow : low ≤ n) (hhigh : n ≤ high) :
    Brings (read (.integer name low high)) (.int n) (.int n) := by
  intro e s g rest d hs h _ hg hr
  have hraw : readRaw 0 (s ++ rest) = .ok (.int n, rest) := by
    have hout := readRaw_of_spells hs h isSpace_nil hr 0
    exact hout.1 (Nat.le_refl 0)
  have hfit : fit (.integer name low high) (.int n) = .ok (.int n) := by
    rw [fit]
    exact if_pos ⟨hlow, hhigh⟩
  have hhead : (s ++ rest).head?.any (fun c => c == '-' || Text.isAsciiDigit c) = true := by
    obtain ⟨c, r, rfl, hc⟩ := exists_digit hs h
    simpa using hc
  rw [read, readInteger, skipSpace_spells hg hs, if_pos hhead, hraw]
  simp only [bind, Except.bind, hfit]

/-! ### Arrays -/

theorem readElements_item (hvalue : Brings reader v w) (hs : Spells .strict s (.value e))
    (hv : e.value? = some v) (hdepth : v.depth ≤ d) (hleads : Leads first u (s ++ rest))
    (hr : Delimited rest) (hmore : readElements reader d fuel false rest = .ok (ws, t)) :
    readElements reader d (fuel + 1) first u = .ok (w :: ws, t) := by
  have hitem := hvalue e s [] rest d hs hv hdepth isSpace_nil hr
  rw [readElements, nextItem_of_leads hleads (hs.starts.append rest)]
  exact bind_eq_ok.2 ⟨_, rfl, bind_eq_ok.2 ⟨_, hitem, bind_eq_ok.2 ⟨_, hmore, rfl⟩⟩⟩

/-- The elements of an array are read up to the closing bracket. -/
theorem readElements_items {es : List Document} (hs : Spells .strict s (.items es))
    (hvs : itemValues? es = some vs) (hvalues : List.Forall₂ (Brings reader) vs ws)
    (hdepth : ∀ v ∈ vs, v.depth ≤ d) (hleads : Leads first u (s ++ rest)) (hfuel : s.length < fuel) :
    readElements reader d fuel first u = .ok (ws, ']' :: rest) := by
  induction es generalizing s u vs ws fuel first with
  | nil => cases hs
  | cons e es ih =>
    obtain ⟨x, xs, hx, hxs, rfl⟩ := itemValues?_cons.1 hvs
    rw [List.forall_mem_cons] at hdepth
    cases hvalues with
    | cons hvalue hvalues =>
    cases hs with
    | @item s g t _ _ hs hg ht =>
      have hpos := ht.pos
      simp only [List.length_append] at hfuel
      obtain ⟨fuel, rfl⟩ : ∃ k, fuel = k + 2 := ⟨fuel - 2, by omega⟩
      rw [List.append_assoc, List.append_assoc] at hleads
      have hr := (ht.delimited_moreItems rest).space_append hg
      refine readElements_item hvalue hs hx hdepth.1 hleads hr ?_
      cases ht with
      | lastItem =>
        cases hxs
        cases hvalues
        rw [readElements, List.singleton_append, nextItem_end hg]
        rfl
      | trailingItem htrail => exact htrail.elim
      | @nextItem g' t _ hg' ht =>
        have hleads := Leads.more hg hg' (s := t ++ rest)
        rw [List.cons_append, List.append_assoc]
        exact ih ht hxs hvalues hdepth.2 hleads (by grind)

theorem brings_list (h : List.Forall₂ (Brings (read shape)) vs ws) :
    Brings (read (.list shape)) (.arr vs) (.arr ws) := by
  intro e s g rest d hs hv hdepth hg _
  obtain ⟨es, rfl, hvs⟩ := exists_items hv
  obtain ⟨d, rfl, hle⟩ := exists_depth_items hdepth
  obtain ⟨u, rfl, hread⟩ : ∃ u, s = '[' :: u ∧
      readElements (read shape) d ((u ++ rest).length + 1) true (u ++ rest) = .ok (ws, ']' :: rest) := by
    cases hs with
    | @emptyList g hg =>
      cases hvs
      cases h
      refine ⟨_, rfl, ?_⟩
      rw [readElements, List.append_assoc, List.singleton_append, nextItem_end hg]
      rfl
    | @list g' s _ hg' hs =>
      have hleads := Leads.first hg' (s := s ++ rest)
      refine ⟨_, rfl, ?_⟩
      rw [List.append_assoc]
      exact readElements_items hs hvs h hle hleads (by grind)
  rw [read, skipSpace_spells hg hs]
  rw [List.cons_append]
  simp only [opened, inArray, hread, bind, Except.bind]
  rfl

/-! ### Objects -/

/-- A loop over members that carries a state along; the numbers are the depth and the fuel. -/
abbrev MemberLoop (σ α : Type) := Nat → Nat → Bool → σ → List Char → Reading (α × List Char)

variable {σ α : Type} {loop : MemberLoop σ α} {a b c : σ} {m : String × Json}

/-- Whatever text spells the member, it takes the loop from one state to the other. -/
def Turns (loop : MemberLoop σ α) (a : σ) (m : String × Json) (b : σ) : Prop :=
  ∀ e s g t u rest d fuel first, nextKey first u = .ok (some m.1, t) →
    readColon t = .ok (g ++ (s ++ rest)) → Spells .strict s (.value e) → e.value? = some m.2 →
    m.2.depth ≤ d → IsSpace g → Delimited rest →
      loop d (fuel + 1) first a u = loop d fuel false b rest

inductive TurnsAll (loop : MemberLoop σ α) : σ → Members → σ → Prop
  | nil {a : σ} : TurnsAll loop a [] a
  | cons {a b c : σ} {m : String × Json} {ms : Members} (h : Turns loop a m b) (hs : TurnsAll loop b ms c) :
    TurnsAll loop a (m :: ms) c

/-- What is left of a loop is the closing brace. -/
def AtEnd (loop : MemberLoop σ α) (d : Nat) (r : Reading (α × List Char)) (b : σ)
    (rest : List Char) : Prop :=
  ∃ fuel first g, IsSpace g ∧ r = loop d (fuel + 1) first b (g ++ '\x7d' :: rest)

theorem loop_member {k g₁ g₂ : List Char} (h : Turns loop a m b) (hkey : stringValue? k = some m.1)
    (hg₁ : IsSpace g₁) (hg₂ : IsSpace g₂) (hs : Spells .strict s (.value e)) (hv : e.value? = some m.2)
    (hdepth : m.2.depth ≤ d) (hr : Delimited rest)
    (hleads : Leads first u ('"' :: (k ++ '"' :: (g₁ ++ ':' :: (g₂ ++ (s ++ rest)))))) :
    loop d (fuel + 1) first a u = loop d fuel false b rest :=
  h e s g₂ _ u rest d fuel first (nextKey_of_leads hkey hleads) (readColon_eq_ok.2 ⟨g₁, hg₁, rfl⟩)
    hs hv hdepth hg₂ hr

/-- The members of an object are taken up to the closing brace. -/
theorem loop_members {es : Entries} (hs : Spells .strict s (.members es))
    (hms : memberValues? es = some ms) (hturns : TurnsAll loop a ms b)
    (hdepth : ∀ m ∈ ms, m.2.depth ≤ d) (hleads : Leads first u (s ++ rest)) (hfuel : s.length < fuel) :
    AtEnd loop d (loop d fuel first a u) b rest := by
  induction es generalizing s u ms a fuel first with
  | nil =>
    cases hs with
    | extra _ hx => exact hx.elim
    | bare _ hx => exact hx.elim
  | cons entry es ih =>
    cases hs with
    | extra _ hx => exact hx.elim
    | bare _ hx => exact hx.elim
    | @member k g₁ g₂ s g₃ t e _ hk hg₁ hg₂ hs hg₃ ht =>
      obtain ⟨key, x, xs, hkey, hx, hxs, rfl⟩ := memberValues?_cons.1 hms
      rw [List.forall_mem_cons] at hdepth
      cases hturns with
      | cons hturn hturns =>
      have hpos := ht.pos
      simp only [List.length_cons, List.length_append] at hfuel
      obtain ⟨fuel, rfl⟩ : ∃ k, fuel = k + 2 := ⟨fuel - 2, by omega⟩
      simp only [List.cons_append, List.append_assoc] at hleads
      have hr := (ht.delimited_moreMembers rest).space_append hg₃
      rw [loop_member hturn hkey hg₁ hg₂ hs hx hdepth.1 hr hleads]
      cases ht with
      | lastMember =>
        cases hxs
        cases hturns
        exact ⟨fuel, false, g₃, hg₃, rfl⟩
      | trailingMember htrail => exact htrail.elim
      | @nextMember g' t _ hg' ht =>
        have hleads := Leads.more hg₃ hg' (s := t ++ rest)
        rw [List.cons_append, List.append_assoc]
        exact ih ht hxs hturns hdepth.2 hleads (by grind)

theorem loop_record {es : Entries} (hs : Spells .strict s (.value (.record es)))
    (hms : memberValues? es = some ms) (hturns : TurnsAll loop a ms b)
    (hdepth : ∀ m ∈ ms, m.2.depth ≤ d) : ∃ u, s = '\x7b' :: u ∧
      ∀ rest, AtEnd loop d (loop d ((u ++ rest).length + 1) true a (u ++ rest)) b rest := by
  cases hs with
  | @emptyRecord g hg =>
    cases hms
    cases hturns
    refine ⟨_, rfl, fun rest => ⟨(g ++ ['\x7d'] ++ rest).length, true, g, hg, ?_⟩⟩
    rw [List.append_assoc, List.singleton_append]
  | @record g s _ hg hs =>
    refine ⟨_, rfl, fun rest => ?_⟩
    have hleads := Leads.first hg (s := s ++ rest)
    rw [List.append_assoc]
    exact loop_members hs hms hturns hdepth hleads (by grind)

variable {fields : List (Field ShapeReader)} {given members others : Members} {key : String}

/-- A member that is a field not yet given. -/
theorem turns_named {f : Field ShapeReader} (hf : Field.find? fields key = some f)
    (hnew : Members.get? f.name given = none) (hv : Brings f.content v w) :
    Turns (readNamed fields) given (key, v) (given ++ [(f.name, w)]) := by
  intro e s g t u rest d fuel first hnext hcolon hs hvalue hdepth hg hr
  have hread := hv e s g rest d hs hvalue hdepth hg hr
  rw [readNamed, hnext]
  simp only [bind, Except.bind, hf, hnew, hcolon, hread]
  rfl

theorem brings_record (h : TurnsAll (readNamed fields) [] ms given)
    (hcomplete : Field.complete fields given = .ok members) :
    Brings (readRecord name fields) (.obj ms) (.obj members) := by
  intro e s g rest d hs hv hdepth hg _
  obtain ⟨es, rfl, hms⟩ := exists_members hv
  obtain ⟨d, rfl, hle⟩ := exists_depth_members hdepth
  rw [readRecord, skipSpace_spells hg hs]
  obtain ⟨u, rfl, hend⟩ := loop_record hs hms h hle
  obtain ⟨fuel, first, g, hg, hread⟩ := hend rest
  have hgiven : readNamed fields d (fuel + 1) first given (g ++ '\x7d' :: rest) =
      .ok (given, '\x7d' :: rest) := by
    rw [readNamed, nextKey_end hg]
    rfl
  rw [hgiven] at hread
  rw [List.cons_append]
  simp only [opened, inObject, hread, bind, Except.bind, hcomplete]
  rfl

/-- The readers of the fields of a record. -/
def fieldReaders : Shape → List (Field ShapeReader)
  | .record _ fields => readers fields
  | _ => []

/-- A member under the first name of a field, and what it is read as. -/
structure Named (fields : List (Field ShapeReader)) (m n : String × Json) : Prop where
  key : n.1 = m.1
  value : ∃ f, Field.find? fields m.1 = some f ∧ f.name = m.1 ∧ Brings f.content m.2 n.2

theorem turnsAll_named (h : List.Forall₂ (Named fields) ms members)
    (hkeys : (Members.keys (given ++ ms)).Nodup) :
    TurnsAll (readNamed fields) given ms (given ++ members) := by
  induction h generalizing given with
  | nil =>
    rw [List.append_nil]
    exact .nil
  | @cons m n ms members hm _ ih =>
    obtain ⟨key, w⟩ := n
    obtain ⟨rfl, f, hf, hname, hv⟩ := hm
    have hnew : Members.get? f.name given = none := by
      cases hget : Members.get? f.name given with
      | none => rfl
      | some v =>
        rw [Members.keys, List.map_append, List.map_cons] at hkeys
        have hmem := List.mem_map_of_mem (f := (·.1)) (Members.mem_of_get? hget)
        exact absurd (hname ▸ List.mem_cons_self) ((List.nodup_append.1 hkeys).2.2 _ hmem _ · rfl)
    have hturn := turns_named hf hnew hv
    rw [hname] at hturn
    have hrest : TurnsAll (readNamed fields) (given ++ [(m.1, w)]) ms (given ++ [(m.1, w)] ++ members) :=
      ih (by simpa [Members.keys] using hkeys)
    rw [List.append_assoc, List.singleton_append] at hrest
    exact .cons hturn hrest

/-- A record whose members stand under the first names of its fields. -/
theorem brings_named (h : List.Forall₂ (Named fields) ms given) (hkeys : (Members.keys ms).Nodup)
    (hcomplete : Field.complete fields given = .ok members) :
    Brings (readRecord name fields) (.obj ms) (.obj members) := by
  have hturns : TurnsAll (readNamed fields) [] ms ([] ++ given) := turnsAll_named h hkeys
  exact brings_record hturns hcomplete

variable {tag variant : String} {known : List String} {variants : List (String × Shape)}

/-- The loop over a tagged object, with the variant and the other members for its state. -/
def taggedLoop (tag : String) (known : List String) :
    MemberLoop (Option String × Members) (String × Members) :=
  fun d fuel first state s => readTagged tag known d fuel first state.1 state.2 s

theorem turns_tag (hvariant : variant ∈ known) (others : Members) :
    Turns (taggedLoop tag known) (none, others) (tag, .str variant) (some variant, others) := by
  intro e s g t u rest d fuel first hnext hcolon hs hvalue _ hg _
  have hname := readName_spells hvariant hs hvalue hg rest
  rw [taggedLoop, readTagged, hnext]
  simp only [bind, Except.bind, hcolon, hname]
  exact if_pos trivial

theorem turns_other (hkey : key ≠ tag) (variant : Option String) (others : Members) (v : Json) :
    Turns (taggedLoop tag known) (variant, others) (key, v) (variant, others ++ [(key, v)]) := by
  intro e s g t u rest d fuel first hnext hcolon hs hvalue hdepth hg hr
  have hread := (readRaw_of_spells hs hvalue hg hr d).1 hdepth
  rw [taggedLoop, readTagged, hnext]
  simp only [bind, Except.bind, hcolon, hread]
  exact if_neg hkey

theorem brings_tagged
    (h : TurnsAll (taggedLoop tag (variants.map (·.1))) (none, []) ms (some variant, others))
    (hfit : fitVariant variants tag variant (.obj others) = .ok w) :
    Brings (read (.tagged name tag variants)) (.obj ms) w := by
  intro e s g rest d hs hv hdepth hg _
  obtain ⟨es, rfl, hms⟩ := exists_members hv
  obtain ⟨d, rfl, hle⟩ := exists_depth_members hdepth
  rw [read, readVariant, skipSpace_spells hg hs]
  obtain ⟨u, rfl, hend⟩ := loop_record hs hms h hle
  obtain ⟨fuel, first, g, hg, hread⟩ := hend rest
  have hvariant : taggedLoop tag (variants.map (·.1)) d (fuel + 1) first (some variant, others)
      (g ++ '\x7d' :: rest) = .ok ((variant, others), '\x7d' :: rest) := by
    rw [taggedLoop, readTagged, nextKey_end hg]
    rfl
  rw [hvariant, taggedLoop] at hread
  rw [List.cons_append]
  simp only [opened, inObject, hread, bind, Except.bind]
  have hpast : pastObject ('\x7d' :: rest) = rest := rfl
  rw [hpast]
  simp only [hfit]

/-! ### What comes out of a reader -/

/-- Whatever is read has the property. -/
def Yields (reader : ShapeReader) (P : Json → Prop) : Prop :=
  ∀ d s v rest, reader d s = .ok (v, rest) → P v

theorem yields_integer (name : String) (low high : Int) :
    Yields (read (.integer name low high)) fun v => ∃ n, low ≤ n ∧ n ≤ high ∧ v = .int n := by
  intro d s v rest h
  rw [read, readInteger] at h
  dsimp only at h
  split at h
  · obtain ⟨⟨u, r⟩, -, h⟩ := bind_eq_ok.1 h
    dsimp only at h
    split at h
    · next hfit =>
      cases h
      cases u with
      | int n =>
        rw [fit] at hfit
        split at hfit
        · next hn =>
          cases hfit
          exact ⟨n, hn.1, hn.2, rfl⟩
        · contradiction
      | _ => contradiction
    · contradiction
  · contradiction

theorem yields_elements {P : Json → Prop} (h : Yields reader P)
    (hread : readElements reader d fuel first s = .ok (vs, rest)) : ∀ v ∈ vs, P v := by
  induction fuel generalizing first s vs with
  | zero => contradiction
  | succ fuel ih =>
    obtain ⟨⟨more, t⟩, -, hread⟩ := bind_eq_ok.1 hread
    cases more with
    | true =>
      obtain ⟨⟨v, u⟩, hv, hread⟩ := bind_eq_ok.1 hread
      obtain ⟨⟨ws, r⟩, hws, hread⟩ := bind_eq_ok.1 hread
      cases hread
      exact List.forall_mem_cons.2 ⟨h d t v u hv, ih hws⟩
    | false =>
      cases hread
      simp

theorem inArray_eq_ok {r : Reading (α × List Char)} {x : α} (h : inArray r = .ok (x, rest)) :
    ∃ rest', r = .ok (x, rest') := by
  unfold inArray at h
  split at h
  · next y rest' =>
    cases hclose : closeArray rest' with
    | error =>
      rw [hclose] at h
      contradiction
    | ok =>
      rw [hclose] at h
      cases h
      exact ⟨rest', rfl⟩
  · contradiction

theorem inObject_eq_ok {r : Reading (α × List Char)} {x : α} (h : inObject r = .ok (x, rest)) :
    ∃ rest', r = .ok (x, rest') := by
  unfold inObject at h
  split at h
  · next y rest' =>
    cases h
    exact ⟨rest', rfl⟩
  · contradiction

theorem opened_eq_ok {x : α} {f : Nat → List Char → Reading α} (h : opened d s f = .ok x) :
    ∃ k, f k s = .ok x := by
  cases d with
  | zero => contradiction
  | succ d => exact ⟨d, h⟩

theorem yields_list {P : Json → Prop} (h : Yields (read shape) P) :
    Yields (read (.list shape)) fun v => ∃ vs, v = .arr vs ∧ ∀ v ∈ vs, P v := by
  intro d s v rest hread
  rw [read] at hread
  split at hread
  · obtain ⟨k, hread⟩ := opened_eq_ok hread
    obtain ⟨rest', hread⟩ := inArray_eq_ok hread
    obtain ⟨⟨vs, r⟩, hvs, hread⟩ := bind_eq_ok.1 hread
    cases hread
    exact ⟨vs, rfl, yields_elements h hvs⟩
  · contradiction

section
variable {P : String → Json → Prop}

theorem yields_named (hfields : ∀ f ∈ fields, Yields f.content (P f.name))
    (hgiven : ∀ m ∈ given, P m.1 m.2)
    (h : readNamed fields d fuel first given s = .ok (members, rest)) : ∀ m ∈ members, P m.1 m.2 := by
  induction fuel generalizing first given s with
  | zero => contradiction
  | succ fuel ih =>
    obtain ⟨⟨key, t⟩, -, h⟩ := bind_eq_ok.1 h
    cases key with
    | none =>
      cases h
      exact hgiven
    | some key =>
      dsimp only at h
      split at h
      · obtain ⟨u, -, h⟩ := bind_eq_ok.1 h
        obtain ⟨u, -, h⟩ := bind_eq_ok.1 h
        exact ih hgiven h
      · next f hf =>
        split at h
        · contradiction
        · obtain ⟨u, -, h⟩ := bind_eq_ok.1 h
          obtain ⟨⟨v, r⟩, hv, h⟩ := bind_eq_ok.1 h
          refine ih (List.forall_mem_append.2 ⟨hgiven, ?_⟩) h
          have hv := hfields f (List.mem_of_find?_eq_some hf) d u v r hv
          simpa using hv

theorem yields_inOrder {expected : String} {i : Nat}
    (hfields : ∀ f ∈ fields, Yields f.content (P f.name))
    (hmissing : ∀ f ∈ fields, ∀ v, f.whenMissing = .ok v → P f.name v)
    (h : readInOrder expected d i fields s = .ok (members, rest)) :
    List.Forall₂ (fun f m => m.1 = f.name ∧ P f.name m.2) fields members := by
  induction fields generalizing i s members with
  | nil =>
    cases h
    exact .nil
  | cons f fs ih =>
    rw [List.forall_mem_cons] at hfields hmissing
    obtain ⟨⟨more, t⟩, -, h⟩ := bind_eq_ok.1 h
    cases more with
    | true =>
      obtain ⟨⟨v, u⟩, hv, h⟩ := bind_eq_ok.1 h
      obtain ⟨⟨ms, r⟩, hms, h⟩ := bind_eq_ok.1 h
      cases h
      exact .cons ⟨rfl, hfields.1 d t v u hv⟩ (ih hfields.2 hmissing.2 hms)
    | false =>
      dsimp only at h
      rw [if_neg Bool.false_ne_true] at h
      split at h
      · contradiction
      · next v hshort =>
        obtain ⟨⟨ms, r⟩, hms, h⟩ := bind_eq_ok.1 h
        cases h
        have hv := hmissing.1 v (whenMissing_of_whenShort hshort)
        exact .cons ⟨rfl, hv⟩ (ih hfields.2 hmissing.2 hms)

/-- A record that is read has its fields in order, each with what its reader yields or what stands for it
when it is missing. -/
theorem yields_record (name : String) (hfields : ∀ f ∈ fields, Yields f.content (P f.name))
    (hmissing : ∀ f ∈ fields, ∀ v, f.whenMissing = .ok v → P f.name v) :
    Yields (readRecord name fields) fun v =>
      ∃ ms, v = .obj ms ∧ List.Forall₂ (fun f m => m.1 = f.name ∧ P f.name m.2) fields ms := by
  intro d s v rest h
  unfold readRecord at h
  split at h
  · obtain ⟨k, h⟩ := opened_eq_ok h
    obtain ⟨rest', h⟩ := inArray_eq_ok h
    obtain ⟨⟨ms, r⟩, hms, h⟩ := bind_eq_ok.1 h
    cases h
    exact ⟨ms, rfl, yields_inOrder hfields hmissing hms⟩
  · obtain ⟨k, h⟩ := opened_eq_ok h
    obtain ⟨rest', h⟩ := inObject_eq_ok h
    obtain ⟨⟨given, r⟩, hgiven, h⟩ := bind_eq_ok.1 h
    dsimp only at h
    split at h
    · next ms hms =>
      cases h
      have hnamed := yields_named hfields (by simp) hgiven
      refine ⟨ms, rfl, complete_forall₂ (fun f _ v hv => ?_)
        (fun f hf v hv => ⟨rfl, hmissing f hf v hv⟩) hms⟩
      exact ⟨rfl, hnamed _ (Members.mem_of_get? hv)⟩
    · contradiction
  · contradiction

end

end Shape
end MockRedirect
