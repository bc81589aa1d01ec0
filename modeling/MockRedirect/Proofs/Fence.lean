import MockRedirect.Proofs.Answer
/-! Plain JSON as an answer. Nothing but the code fences in its strings is lost: fences are looked for in the
whole text, while every other pass leaves literals alone. -/
namespace MockRedirect
open Text

/-! ### Rewritten documents -/

namespace Document
open Json (depthItems depthMembers)

variable {f : List Char → List Char}

mutual
/-- The document with each of its strings, keys included, rewritten. -/
def rewrite (f : List Char → List Char) : Document → Document
  | .word w => .word w
  | .text b => .text (f b)
  | .list ds => .list (rewriteItems f ds)
  | .record es => .record (rewriteMembers f es)
def rewriteItems (f : List Char → List Char) : List Document → List Document
  | [] => []
  | d :: ds => d.rewrite f :: rewriteItems f ds
def rewriteMembers (f : List Char → List Char) : Entries → Entries
  | [] => []
  | (k, d) :: es => (f k, d.rewrite f) :: rewriteMembers f es
end

theorem isContainer_rewrite (d : Document) : (d.rewrite f).isContainer = d.isContainer := by
  cases d <;> rfl

mutual
/-- If each string that can be read can still be read, so can the document, and it is as deep as before. -/
theorem value?_rewrite (hf : ∀ b s, stringValue? b = some s → ∃ t, stringValue? (f b) = some t) :
    ∀ (d : Document) (v : Json), d.value? = some v → ∃ w, (d.rewrite f).value? = some w ∧ w.depth = v.depth
  | .word w, v, hv => ⟨v, hv, rfl⟩
  | .text b, v, hv => by
    obtain ⟨s, hs, rfl⟩ := value?_text.1 hv
    obtain ⟨t, ht⟩ := hf b s hs
    exact ⟨.str t, value?_text.2 ⟨t, ht, rfl⟩, rfl⟩
  | .list ds, v, hv => by
    obtain ⟨vs, hvs, rfl⟩ := value?_list.1 hv
    obtain ⟨ws, hws, hdepth⟩ := itemValues?_rewrite hf ds vs hvs
    exact ⟨.arr ws, value?_list.2 ⟨ws, hws, rfl⟩, congrArg (· + 1) hdepth⟩
  | .record es, v, hv => by
    obtain ⟨ms, hms, rfl⟩ := value?_record.1 hv
    obtain ⟨ws, hws, hdepth⟩ := memberValues?_rewrite hf es ms hms
    exact ⟨.obj ws, value?_record.2 ⟨ws, hws, rfl⟩, congrArg (· + 1) hdepth⟩
theorem itemValues?_rewrite (hf : ∀ b s, stringValue? b = some s → ∃ t, stringValue? (f b) = some t) :
    ∀ (ds : List Document) (vs : List Json), itemValues? ds = some vs →
      ∃ ws, itemValues? (rewriteItems f ds) = some ws ∧ depthItems ws = depthItems vs
  | [], vs, hvs => ⟨vs, hvs, rfl⟩
  | d :: ds, vs, hvs => by
    obtain ⟨x, xs, hx, hxs, rfl⟩ := itemValues?_cons.1 hvs
    obtain ⟨w, hw, hdepth⟩ := value?_rewrite hf d x hx
    obtain ⟨ws, hws, hdepths⟩ := itemValues?_rewrite hf ds xs hxs
    refine ⟨w :: ws, itemValues?_cons.2 ⟨w, ws, hw, hws, rfl⟩, ?_⟩
    rw [depthItems, depthItems, hdepth, hdepths]
theorem memberValues?_rewrite (hf : ∀ b s, stringValue? b = some s → ∃ t, stringValue? (f b) = some t) :
    ∀ (es : Entries) (ms : Members), memberValues? es = some ms →
      ∃ ws, memberValues? (rewriteMembers f es) = some ws ∧ depthMembers ws = depthMembers ms
  | [], ms, hms => ⟨ms, hms, rfl⟩
  | (k, d) :: es, ms, hms => by
    obtain ⟨key, x, xs, hkey, hx, hxs, rfl⟩ := memberValues?_cons.1 hms
    obtain ⟨t, ht⟩ := hf k key hkey
    obtain ⟨w, hw, hdepth⟩ := value?_rewrite hf d x hx
    obtain ⟨ws, hws, hdepths⟩ := memberValues?_rewrite hf es xs hxs
    refine ⟨(t, w) :: ws, memberValues?_cons.2 ⟨t, w, ws, ht, hw, hws, rfl⟩, ?_⟩
    rw [depthMembers, depthMembers, hdepth, hdepths]
end

/-- Every string of a part can be read, and every word. -/
def Part.HasValue : Part → Prop
  | .value d => ∃ v, d.value? = some v
  | .items ds | .moreItems ds => ∃ vs, itemValues? ds = some vs
  | .members es | .moreMembers es => ∃ ms, memberValues? es = some ms

def Part.rewrite (f : List Char → List Char) : Part → Part
  | .value d => .value (d.rewrite f)
  | .items ds => .items (rewriteItems f ds)
  | .moreItems ds => .moreItems (rewriteItems f ds)
  | .members es => .members (rewriteMembers f es)
  | .moreMembers es => .moreMembers (rewriteMembers f es)

end Document

/-! ### Strings that can be read -/

namespace Json
open Document

variable {s b r cs : List Char} {c : Char}

/-- The inside of a string, character by character and escape by escape. No escape has a backtick in it. -/
inductive IsReadable : List Char → Prop
  | nil : IsReadable []
  | escape {p : List Char} {c : Char} (hread : ∀ r, readEscape (p ++ r) = .ok (c, r)) (hp : '\x60' ∉ p)
    {s : List Char} (h : IsReadable s) : IsReadable ('\\' :: (p ++ s))
  | char {c : Char} (hquote : c ≠ '"') (hslash : c ≠ '\\') (hcontrol : ¬c.toNat < 32) {s : List Char}
    (h : IsReadable s) : IsReadable (c :: s)

theorem IsReadable.tail (h : IsReadable (c :: s)) (hc : c ≠ '\\') : IsReadable s := by
  cases h with
  | escape => contradiction
  | char _ _ _ h => exact h

theorem exists_isReadable {bound : List Char} (h : readStringBody bound s = .ok (cs, r)) :
    ∃ b, s = b ++ '"' :: r ∧ IsReadable b := by
  induction bound generalizing s cs with
  | nil => cases s <;> contradiction
  | cons a bound ih =>
    cases s with
    | nil => contradiction
    | cons c s =>
      rw [readStringBody] at h
      split at h
      · next hquote =>
        cases h
        exact ⟨[], by rw [hquote]; rfl, .nil⟩
      · next hquote =>
        split at h
        · next hslash =>
          obtain ⟨⟨d, s'⟩, hd, h⟩ := bind_eq_ok.1 h
          obtain ⟨⟨ds, s''⟩, hds, h⟩ := bind_eq_ok.1 h
          cases h
          obtain ⟨p, rfl, -, hp, hescape⟩ := readEscape_eq_ok hd
          obtain ⟨b, rfl, hb⟩ := ih hds
          exact ⟨'\\' :: (p ++ b), by simp [hslash], .escape hescape hp hb⟩
        · next hslash =>
          split at h
          · contradiction
          · next hcontrol =>
            obtain ⟨⟨ds, s'⟩, hds, h⟩ := bind_eq_ok.1 h
            cases h
            obtain ⟨b, rfl, hb⟩ := ih hds
            exact ⟨c :: b, rfl, .char hquote hslash hcontrol hb⟩

theorem IsReadable.exists_read (h : IsReadable b) {bound : List Char} (hlt : b.length < bound.length) :
    ∃ cs, readStringBody bound (b ++ ['"']) = .ok (cs, []) := by
  induction h generalizing bound with
  | nil =>
    cases bound with
    | nil => contradiction
    | cons => exact ⟨[], rfl⟩
  | @escape p c hread hp s _ ih =>
    cases bound with
    | nil => contradiction
    | cons a bound =>
      simp only [List.length_cons, List.length_append] at hlt
      have hbound : s.length < bound.length := by omega
      obtain ⟨cs, hcs⟩ := ih hbound
      refine ⟨c :: cs, ?_⟩
      rw [List.cons_append, List.append_assoc, readStringBody, if_neg (by decide), if_pos rfl, hread, bind_eq_ok]
      exact ⟨_, rfl, bind_eq_ok.2 ⟨_, hcs, rfl⟩⟩
  | @char c hquote hslash hcontrol s _ ih =>
    cases bound with
    | nil => contradiction
    | cons a bound =>
      obtain ⟨cs, hcs⟩ := ih (Nat.lt_of_succ_lt_succ hlt)
      refine ⟨c :: cs, ?_⟩
      rw [List.cons_append, readStringBody, if_neg hquote, if_neg hslash, if_neg hcontrol]
      exact bind_eq_ok.2 ⟨_, hcs, rfl⟩

theorem exists_stringValue?_iff : (∃ t, stringValue? b = some t) ↔ IsReadable b := by
  constructor
  · rintro ⟨t, ht⟩
    obtain ⟨⟨cs, r⟩, hcs, hread⟩ := bind_eq_ok.1 (stringValue?_eq_some.1 ht)
    cases hread
    obtain ⟨b', heq, hb⟩ := exists_isReadable hcs
    obtain rfl : b = b' := (List.append_inj' heq rfl).1
    exact hb
  · intro h
    have hbound : b.length < (b ++ ['"']).length := by simp
    obtain ⟨cs, hcs⟩ := h.exists_read hbound
    exact ⟨_, stringValue?_eq_some.2 (bind_eq_ok.2 ⟨_, hcs, rfl⟩)⟩

theorem isBody_of_stringValue? {t : String} (h : stringValue? b = some t) : IsBody b := by
  obtain ⟨b', heq, hb, -⟩ := exists_body_of_readString (stringValue?_eq_some.1 h)
  obtain rfl : b = b' := (List.append_inj' heq rfl).1
  exact hb

end Json

/-! ### Fences -/

namespace Template
open Document Json

variable {s b : List Char} {c : Char} {d : Document} {v : Json}

theorem dropFences_go_drop (s : List Char) (n : Nat) : dropFences.go s n = dropFences (s.drop n) := by
  induction s generalizing n with
  | nil => cases n <;> rfl
  | cons c s ih =>
    cases n with
    | zero => rfl
    | succ n => exact ih n

theorem dropFences_fence (s : List Char) : dropFences (fence ++ s) =
    dropFences (if startsWith "json".toList s then s.drop 4 else s) := by
  have hgo : dropFences (fence ++ s) = _ := dropFences_go '\x60' ('\x60' :: '\x60' :: s)
  have hstart : startsWith fence ('\x60' :: '\x60' :: '\x60' :: s) = true :=
    startsWith_iff.2 (List.prefix_append fence s)
  have hdrop : ('\x60' :: '\x60' :: s).drop 2 = s := rfl
  rw [hgo, if_pos hstart, dropFences_go_drop, hdrop]
  split
  · rfl
  · rfl

theorem dropFences_cons (h : ¬fence <+: c :: s) : dropFences (c :: s) = c :: dropFences s :=
  (dropFences_go c s).trans (if_neg fun hstart => h (startsWith_iff.1 hstart))

/-- A text without backticks is passed over. -/
theorem dropFences_plain (h : '\x60' ∉ s) : Passes dropFences s s := by
  induction s with
  | nil => exact .nil
  | cons c s ih =>
    rw [List.mem_cons, not_or] at h
    intro rest
    have hstart : ¬fence <+: c :: (s ++ rest) := fun ⟨r, hr⟩ => h.1 (List.cons.inj hr).1
    rw [List.cons_append, dropFences_cons hstart, ih h.2 rest]
    rfl

theorem dropFences_eq_self (h : ¬fence <:+: s) : dropFences s = s := by
  induction s with
  | nil => rfl
  | cons c s ih =>
    rw [dropFences_cons fun hfront => h hfront.isInfix, ih fun hin => h (hin.trans (List.suffix_cons c s).isInfix)]

/-- What is left of a string can still be read: a fence is never a part of an escape. -/
theorem isReadable_dropFences (h : IsReadable b) : IsReadable (dropFences b) := by
  induction hlength : b.length using Nat.strong_induction_on generalizing b with
  | _ n ih =>
    subst hlength
    by_cases hfence : fence <+: b
    · obtain ⟨s, rfl⟩ := hfence
      have hs : IsReadable s :=
        ((IsReadable.tail h (by decide)).tail (by decide)).tail (by decide)
      rw [dropFences_fence]
      split
      · next hjson =>
        obtain ⟨t, rfl⟩ := startsWith_iff.1 hjson
        have ht : IsReadable t :=
          (((IsReadable.tail hs (by decide)).tail (by decide)).tail (by decide)).tail (by decide)
        exact ih t.length (by simp [fence]; omega) ht rfl
      · exact ih s.length (by simp [fence]; omega) hs rfl
    · cases h with
      | nil => exact .nil
      | @escape p c hread hp s hs =>
        have hpass : Passes dropFences ('\\' :: p) ('\\' :: p) := dropFences_plain (by simpa using hp)
        have hdrop := hpass s
        rw [List.cons_append, List.cons_append] at hdrop
        rw [hdrop]
        exact .escape hread hp (ih s.length (by simp only [List.length_append, List.length_cons]; omega) hs rfl)
      | @char c hquote hslash hcontrol s hs =>
        rw [dropFences_cons hfence]
        exact .char hquote hslash hcontrol (ih s.length (by simp) hs rfl)

theorem exists_stringValue?_dropFences (b : List Char) (k : String) (h : stringValue? b = some k) :
    ∃ t, stringValue? (dropFences b) = some t :=
  exists_stringValue?_iff.2 (isReadable_dropFences (exists_stringValue?_iff.1 ⟨k, h⟩))

/-- A fence does not reach beyond the quotes of its string. -/
theorem dropFences_literal (b : List Char) :
    Passes dropFences ('"' :: (b ++ ['"'])) ('"' :: (dropFences b ++ ['"'])) := by
  intro rest
  have hquote : Apart '"' := ⟨by decide, by decide⟩
  have hmark (s : List Char) : dropFences ('"' :: s) = '"' :: dropFences s :=
    dropFences_plain (s := ['"']) (by decide) s
  rw [List.cons_append, hmark, List.append_assoc, List.singleton_append, dropFences_append hquote, hmark]
  simp

theorem dropFences_space {g : List Char} (hg : IsSpace g) : Passes dropFences g g :=
  dropFences_plain fun hc => absurd (hg _ hc) (by decide)

theorem dropFences_word {w : List Char} (hw : IsWord w) : Passes dropFences w w :=
  dropFences_plain fun hc => absurd (hw.2 _ hc) (by decide)

/-- Without its fences a text spells the same document, without the fences in its strings. -/
theorem dropFences_spells {p : Part} (h : Spells .strict s p) (hp : p.HasValue) :
    ∃ s', Spells .strict s' (p.rewrite dropFences) ∧ Passes dropFences s s' := by
  have hmark {c : Char} (hc : '\x60' ≠ c) : Passes dropFences [c] [c] := dropFences_plain (by simpa using hc)
  have hbody {b : List Char} {k : String} (hk : stringValue? b = some k) : IsBody (dropFences b) := by
    obtain ⟨t, ht⟩ := exists_stringValue?_dropFences b k hk
    exact isBody_of_stringValue? ht
  induction h with
  | @word w hw => exact ⟨w, .word hw, dropFences_word hw⟩
  | @text b _ =>
    obtain ⟨v, hv⟩ := hp
    obtain ⟨k, hk, -⟩ := value?_text.1 hv
    exact ⟨_, .text (hbody hk), dropFences_literal b⟩
  | @emptyList g hg =>
    exact ⟨_, .emptyList hg, (hmark (by decide)).append ((dropFences_space hg).append (hmark (by decide)))⟩
  | list hg _ ih =>
    obtain ⟨v, hv⟩ := hp
    obtain ⟨vs, hvs, -⟩ := value?_list.1 hv
    obtain ⟨s', hs', hpass⟩ := ih ⟨vs, hvs⟩
    exact ⟨_, .list hg hs', .cons (hmark (by decide)) ((dropFences_space hg).append hpass)⟩
  | @emptyRecord g hg =>
    exact ⟨_, .emptyRecord hg, (hmark (by decide)).append ((dropFences_space hg).append (hmark (by decide)))⟩
  | record hg _ ih =>
    obtain ⟨v, hv⟩ := hp
    obtain ⟨ms, hms, -⟩ := value?_record.1 hv
    obtain ⟨s', hs', hpass⟩ := ih ⟨ms, hms⟩
    exact ⟨_, .record hg hs', .cons (hmark (by decide)) ((dropFences_space hg).append hpass)⟩
  | item _ hg _ ihs iht =>
    obtain ⟨vs, hvs⟩ := hp
    obtain ⟨x, xs, hx, hxs, -⟩ := itemValues?_cons.1 hvs
    obtain ⟨s', hs', hspass⟩ := ihs ⟨x, hx⟩
    obtain ⟨t', ht', htpass⟩ := iht ⟨xs, hxs⟩
    exact ⟨_, .item hs' hg ht', hspass.append ((dropFences_space hg).append htpass)⟩
  | lastItem => exact ⟨_, .lastItem, hmark (by decide)⟩
  | nextItem hg _ ih =>
    obtain ⟨s', hs', hpass⟩ := ih hp
    exact ⟨_, .nextItem hg hs', .cons (hmark (by decide)) ((dropFences_space hg).append hpass)⟩
  | @member k g₁ g₂ _ g₃ _ _ _ _ hg₁ hg₂ _ hg₃ _ ihs iht =>
    obtain ⟨ms, hms⟩ := hp
    obtain ⟨key, x, xs, hkey, hx, hxs, -⟩ := memberValues?_cons.1 hms
    obtain ⟨s', hs', hspass⟩ := ihs ⟨x, hx⟩
    obtain ⟨t', ht', htpass⟩ := iht ⟨xs, hxs⟩
    exact ⟨_, .member (hbody hkey) hg₁ hg₂ hs' hg₃ ht', .member (dropFences_literal k) (hmark (by decide))
      (dropFences_space hg₁) (dropFences_space hg₂) hspass (dropFences_space hg₃) htpass⟩
  | lastMember => exact ⟨_, .lastMember, hmark (by decide)⟩
  | nextMember hg _ ih =>
    obtain ⟨s', hs', hpass⟩ := ih hp
    exact ⟨_, .nextMember hg hs', .cons (hmark (by decide)) ((dropFences_space hg).append hpass)⟩
  | extra _ hx => exact hx.elim
  | bare _ hx => exact hx.elim
  | trailingItem htrail => exact htrail.elim
  | trailingMember htrail => exact htrail.elim

theorem dropFences_whole (h : Style.strict.Whole s d) (hd : ∃ v, d.value? = some v) :
    Style.strict.Whole (dropFences s) (d.rewrite dropFences) := by
  obtain ⟨g, t, g', rfl, hg, hg', ht⟩ := h
  obtain ⟨t', ht', hpass⟩ := dropFences_spells ht hd
  refine ⟨g, t', g', ?_, hg, hg', ht'⟩
  have hall := ((dropFences_space hg).append (hpass.append (dropFences_space hg'))) []
  simpa [dropFences, dropFences.go] using hall

/-! ### Plain answers -/

/-- A document with brackets around it is its own outer span. -/
theorem jsonSpan_whole (h : Style.strict.Whole s d) (hd : d.isContainer = true) :
    Style.strict.Whole (jsonSpan s) d := by
  obtain ⟨g, t, g', rfl, hg, hg', ht⟩ := h
  have hprose {g : List Char} (hg : IsSpace g) : IsProse g := by
    intro c hc
    have hspace := hg c hc
    simp only [isSpace, Bool.or_eq_true, beq_iff_eq] at hspace
    obtain ((rfl | rfl) | rfl) | rfl := hspace <;> decide
  rw [jsonSpan_prose (bracketed_of_spells ht hd) (hprose hg) (hprose hg')]
  exact ⟨[], t, [], by simp, isSpace_nil, isSpace_nil, ht⟩

theorem isGap_of_isSpace {g : List Char} (hg : IsSpace g) : IsGap g := by
  induction g with
  | nil => exact .nil
  | cons c g ih =>
    obtain ⟨hc, hg⟩ := List.forall_mem_cons.1 hg
    exact .blank hc (ih hg)

theorem answerText_whole (h : Style.strict.Whole s d) (hd : ∃ v, d.value? = some v)
    (hcontainer : d.isContainer = true) :
    Style.strict.Whole (answerText s) ((d.rewrite dropFences).without isNoise) := by
  have hunfenced : Style.strict.blank.Whole (dropFences s) (d.rewrite dropFences) := dropFences_whole h hd
  have htrimmed : Style.strict.Whole (trim (dropFences s)) (d.rewrite dropFences) := trim_whole hunfenced
  have hspan := jsonSpan_whole htrimmed ((isContainer_rewrite d).trans hcontainer)
  exact trim_stripped_whole (fun _ => isGap_of_isSpace) (fun _ => False.elim) (fun _ => False.elim) hspan

/-- A tree is a list or a record if its document is one. -/
theorem isContainer_of_value? (hd : d.value? = some v) (hv : ¬v.IsScalar) : d.isContainer = true := by
  cases d with
  | word w => exact absurd (short_of_wordValue hd).1 hv
  | text b =>
    obtain ⟨s, -, rfl⟩ := value?_text.1 hd
    exact absurd trivial hv
  | list | record => rfl

/-- Plain JSON as an answer is read as if the fences had not been written in its strings. -/
theorem sanitize_of_whole (hs : Style.strict.Whole s d) (hd : ∃ u, d.value? = some u) (h : Json.parse s = .ok v)
    (hv : ¬v.IsScalar) : ∃ w, (d.rewrite dropFences).value? = some w ∧ Json.parse (dropFences s) = .ok w.merged ∧
      sanitize s = .ok (w.merged.prune fun k => isNoise k.toList).zeroStatus := by
  obtain ⟨u, hu⟩ := hd
  obtain ⟨hdepth, rfl⟩ := (Json.parse_of_whole hs hu).1 h
  have hcontainer : d.isContainer = true :=
    isContainer_of_value? hu fun hscalar => hv ((merged_of_isScalar hscalar).symm ▸ hscalar)
  obtain ⟨w, hw, hwdepth⟩ := value?_rewrite exists_stringValue?_dropFences d u hu
  have hunfenced : Style.strict.Whole (dropFences s) (d.rewrite dropFences) := dropFences_whole hs ⟨u, hu⟩
  have hparse : Json.parse (dropFences s) = .ok w.merged :=
    (Json.parse_of_whole hunfenced hw).2 ⟨hwdepth ▸ hdepth, rfl⟩
  obtain ⟨x, hx, hprune⟩ := parse_without (fun _ _ => isNoise_of_stringValue?) hunfenced (by simp [hw]) hparse
    (answerText_whole hs ⟨u, hu⟩ hcontainer)
  refine ⟨w, hw, hparse, ?_⟩
  rw [sanitize, hx]
  exact congrArg (fun x => Except.ok x.zeroStatus) hprune

/-- Plain JSON without a fence, as an answer, gives exactly its own tree without noise, with the status zeroed,
whatever else its strings hold. With fences it gives the tree of its document in which each string, as it is
written, has lost them. -/
theorem sanitize_json (h : Json.parse s = .ok v) (hv : ¬v.IsScalar) :
    (¬fence <:+: s → sanitize s = .ok (v.prune fun k => isNoise k.toList).zeroStatus) ∧
      (∃ d, Style.strict.Whole s d ∧ ∃ u, d.value? = some u) ∧
      ∀ d, Style.strict.Whole s d → (∃ u, d.value? = some u) → ∃ w, (d.rewrite dropFences).value? = some w ∧
        sanitize s = .ok (w.merged.prune fun k => isNoise k.toList).zeroStatus := by
  obtain ⟨d, u, hs, hu, -, -⟩ := Json.parse_eq_ok.1 h
  refine ⟨fun hfence => ?_, ⟨d, hs, u, hu⟩, fun d hs hd => ?_⟩
  · obtain ⟨w, -, hparse, hsanitize⟩ := sanitize_of_whole hs ⟨u, hu⟩ h hv
    rw [dropFences_eq_self hfence, h] at hparse
    cases hparse
    exact hsanitize
  · obtain ⟨w, hw, -, hsanitize⟩ := sanitize_of_whole hs hd h hv
    exact ⟨w, hw, hsanitize⟩

/-- A list of one string, as it is written. -/
theorem whole_single (hb : IsBody b) : Style.strict.Whole ('[' :: '"' :: (b ++ ['"', ']'])) (.list [.text b]) := by
  have hlist : Spells .strict ('[' :: ([] ++ ('"' :: (b ++ ['"']) ++ ([] ++ [']'])))) (.value (.list [.text b])) :=
    .list isSpace_nil (.item (.text hb) isSpace_nil .lastItem)
  exact ⟨[], _, [], by simp, isSpace_nil, isSpace_nil, hlist⟩

theorem value?_single {k : String} (h : stringValue? b = some k) :
    (Document.list [.text b]).value? = some (.arr [.str k]) := by
  simp [value?, itemValues?, h]

theorem parse_single {k : String} (h : stringValue? b = some k) :
    Json.parse ('[' :: '"' :: (b ++ ['"', ']'])) = .ok (.arr [.str k]) :=
  (Json.parse_of_whole (whole_single (isBody_of_stringValue? h)) (value?_single h)).2
    ⟨by simp [depth, depthItems, depthLimit], rfl⟩

/-- Comment marks, a trailing comma and a meta mark in a string; and a fence in a string. -/
theorem sanitize_json_marks :
    Json.parse "[\"/*,]@\"]".toList = .ok (.arr [.str "/*,]@"]) ∧
      sanitize "[\"/*,]@\"]".toList = .ok (.arr [.str "/*,]@"]) ∧
      Json.parse "[\"\x60\x60\x60json,]\"]".toList = .ok (.arr [.str "\x60\x60\x60json,]"]) ∧
      sanitize "[\"\x60\x60\x60json,]\"]".toList = .ok (.arr [.str ",]"]) := by
  have htext : "[\"/*,]@\"]".toList = '[' :: '"' :: ("/*,]@".toList ++ ['"', ']']) := by decide
  have hstring : stringValue? "/*,]@".toList = some "/*,]@" := by decide +kernel
  have hfence : ¬fence <:+: "[\"/*,]@\"]".toList := fun hin =>
    absurd (hin.subset (List.mem_replicate.2 ⟨by decide, rfl⟩)) (by decide : '\x60' ∉ _)
  have htext' : "[\"\x60\x60\x60json,]\"]".toList = '[' :: '"' :: ("\x60\x60\x60json,]".toList ++ ['"', ']']) := by
    decide
  have hstring' : stringValue? "\x60\x60\x60json,]".toList = some "\x60\x60\x60json,]" := by decide +kernel
  have hrest : stringValue? (dropFences "\x60\x60\x60json,]".toList) = some ",]" := by decide +kernel
  rw [htext] at hfence ⊢
  rw [htext']
  have hparse := parse_single hstring
  have hparse' := parse_single hstring'
  have hplain := (sanitize_json hparse id).1 hfence
  obtain ⟨w, hw, hsanitize⟩ := (sanitize_json hparse' id).2.2 _ (whole_single (isBody_of_stringValue? hstring'))
    ⟨_, value?_single hstring'⟩
  rw [Document.rewrite, rewriteItems, Document.rewrite, rewriteItems, value?_single hrest] at hw
  cases hw
  exact ⟨hparse, hplain, hparse', hsanitize⟩

/-- A string that is a fence is emptied. -/
theorem sanitize_empties_fence :
    Json.parse "[\"\x60\x60\x60\"]".toList = .ok (.arr [.str "\x60\x60\x60"]) ∧
      sanitize "[\"\x60\x60\x60\"]".toList = .ok (.arr [.str ""]) := by
  have htext : "[\"\x60\x60\x60\"]".toList = '[' :: '"' :: ("\x60\x60\x60".toList ++ ['"', ']']) := by decide
  have hstring : stringValue? "\x60\x60\x60".toList = some "\x60\x60\x60" := by decide +kernel
  have hanswer : answerText "[\"\x60\x60\x60\"]".toList = '[' :: '"' :: ([] ++ ['"', ']']) := by decide +kernel
  have hempty : stringValue? [] = some "" := by decide +kernel
  constructor
  · rw [htext, parse_single hstring]
  · rw [sanitize, hanswer, parse_single hempty]
    rfl

end Template
end MockRedirect
