import MockRedirect.Proofs.Comment
/-! Templates as tokens: what stands in a literal or a comment is part of one token, and a literal is a key if a colon
comes next. Every annotated document has such tokens, and its comments are those that are found in it. -/
namespace MockRedirect
open Text

namespace Template
open Document

/-! ### Tokens -/

/-- What a template is made of, apart from blanks. Everything outside literals and comments is a token for each
character. -/
inductive Token where
  | comment (inner : List Char)
  | key (body : List Char)
  | value (body : List Char)
  | mark (c : Char)

def Token.text : Token → List Char
  | .comment inner => '/' :: '*' :: (inner ++ ['*', '/'])
  | .key body => '"' :: (body ++ ['"'])
  | .value body => '"' :: (body ++ ['"'])
  | .mark c => [c]

def Token.inner? : Token → Option (List Char)
  | .comment inner => some inner
  | _ => none

def Token.key? : Token → Option (List Char)
  | .key body => some body
  | _ => none

/-- The comments. -/
def inners (ts : List Token) : List (List Char) := ts.filterMap Token.inner?

def lastKey (ts : List Token) : Option (List Char) := (ts.filterMap Token.key?).getLast?

/-- A colon comes next, with comments in front of it or without. -/
def ColonNext : List Token → Prop
  | .comment _ :: ts => ColonNext ts
  | .mark c :: _ => c = ':'
  | _ => False

/-- A token is written as it is where `next` follows it. A literal is a key if a colon comes next. -/
def Token.Fits (next : List Token) : Token → Prop
  | .comment inner => ¬['*', '/'] <:+: inner
  | .key body => IsBody body ∧ ColonNext next
  | .value body => IsBody body ∧ ¬ColonNext next
  | .mark c => isBlank c = false ∧ c ∉ ['"', '/', '\\']

/-- A text as tokens, where `after` is what follows it. -/
inductive Scans (after : List Token) : List Char → List Token → Prop
  | nil : Scans after [] []
  | blank {c : Char} {s : List Char} {ts : List Token} (hc : Json.isSpace c = true) (h : Scans after s ts) :
    Scans after (c :: s) ts
  | token {t : Token} {s : List Char} {ts : List Token} (ht : t.Fits (ts ++ after)) (h : Scans after s ts) :
    Scans after (t.text ++ s) (t :: ts)

variable {after ts us : List Token} {s : List Char} {t : Token}

/-- The text up to a token, and the text behind it. -/
theorem Scans.split (h : Scans after s (ts ++ t :: us)) : ∃ s₁ s₂, s = s₁ ++ (t.text ++ s₂) ∧
    Scans (t :: us ++ after) s₁ ts ∧ t.Fits (us ++ after) ∧ Scans after s₂ us := by
  generalize hvs : ts ++ t :: us = vs at h
  induction h generalizing ts with
  | nil => simp at hvs
  | @blank c s vs hc _ ih =>
    obtain ⟨s₁, s₂, rfl, hfront, ht, hback⟩ := ih hvs
    exact ⟨c :: s₁, s₂, rfl, .blank hc hfront, ht, hback⟩
  | @token v s vs hv h ih =>
    cases ts with
    | nil =>
      obtain ⟨rfl, rfl⟩ := List.cons.inj hvs
      exact ⟨[], s, rfl, .nil, hv, h⟩
    | cons v' ts =>
      rw [List.cons_append, List.cons.injEq] at hvs
      obtain ⟨rfl, hvs⟩ := hvs
      obtain ⟨s₁, s₂, rfl, hfront, ht, hback⟩ := ih hvs
      refine ⟨v'.text ++ s₁, s₂, (List.append_assoc ..).symm, .token ?_ hfront, ht, hback⟩
      rwa [← hvs, List.append_assoc] at hv

theorem isSpace_of_scans (h : Scans after s []) : IsSpace s := by
  generalize hts : ([] : List Token) = ts at h
  induction h with
  | nil => exact Json.isSpace_nil
  | blank hc _ ih => exact List.forall_mem_cons.2 ⟨hc, ih hts⟩
  | token => cases hts

/-! ### Texts that have tokens -/

/-- In front of a text with tokens that do not start with a colon the whole has such tokens. -/
def Scannable (after : List Token) (s : List Char) : Prop := ∀ t ts, Scans after t ts → ¬ColonNext (ts ++ after) →
  ∃ us, Scans after (s ++ t) us ∧ ¬ColonNext (us ++ after)

theorem Scannable.append {s s' : List Char} (h : Scannable after s) (h' : Scannable after s') :
    Scannable after (s ++ s') := by
  intro t ts ht hts
  obtain ⟨us, hus, hnext⟩ := h' t ts ht hts
  obtain ⟨vs, hvs, hnext⟩ := h _ us hus hnext
  exact ⟨vs, by rwa [List.append_assoc], hnext⟩

theorem scannable_nil : Scannable after [] := fun _ ts ht hts => ⟨ts, ht, hts⟩

theorem scannable_mark {c : Char} (hc : isBlank c = false ∧ c ∉ ['"', '/', '\\']) (hcolon : c ≠ ':') :
    Scannable after [c] := fun _ ts ht _ => ⟨.mark c :: ts, .token (t := .mark c) hc ht, hcolon⟩

theorem Scannable.cons {c : Char} (hc : Scannable after [c]) (h : Scannable after s) : Scannable after (c :: s) :=
  hc.append h

theorem scannable_word {w : List Char} (hw : IsWord w) : Scannable after w := by
  obtain ⟨-, hw⟩ := hw
  induction w with
  | nil => exact scannable_nil
  | cons c w ih =>
    rw [List.forall_mem_cons] at hw
    refine .cons (scannable_mark ⟨Json.isBlank_of_isWordChar hw.1, ?_⟩ ?_) (ih hw.2)
    · intro hc
      simp only [List.mem_cons, List.not_mem_nil, or_false] at hc
      obtain rfl | rfl | rfl := hc <;> exact absurd hw.1 (by decide)
    · rintro rfl
      exact absurd hw.1 (by decide)

theorem scannable_value {b : List Char} (hb : IsBody b) : Scannable after ('"' :: (b ++ ['"'])) :=
  fun _ ts ht hts => ⟨.value b :: ts, .token (t := .value b) ⟨hb, hts⟩ ht, id⟩

/-- The comments of a gap leave what comes next as it is. -/
theorem exists_scans_gap {g : List Char} (hg : IsGap g) {t : List Char} (ht : Scans after t ts) :
    ∃ us, Scans after (g ++ t) us ∧ (ColonNext (us ++ after) ↔ ColonNext (ts ++ after)) := by
  induction hg with
  | nil => exact ⟨ts, ht, Iff.rfl⟩
  | blank hc _ ih =>
    obtain ⟨us, hus, hnext⟩ := ih
    exact ⟨us, .blank hc hus, hnext⟩
  | @comment inner g hinner _ ih =>
    obtain ⟨us, hus, hnext⟩ := ih
    refine ⟨.comment inner :: us, ?_, hnext⟩
    have htoken := Scans.token (t := .comment inner) hinner hus
    simpa [Token.text] using htoken

theorem scannable_gap {g : List Char} (hg : IsGap g) : Scannable after g := by
  intro t ts ht hts
  obtain ⟨us, hus, hnext⟩ := exists_scans_gap hg ht
  exact ⟨us, hus, fun h => hts (hnext.1 h)⟩

/-- A key with its colon. -/
theorem Scannable.key {k g : List Char} (hk : IsBody k) (hg : IsGap g) (h : Scannable after s) :
    Scannable after ('"' :: (k ++ '"' :: (g ++ ':' :: s))) := by
  intro t ts ht hts
  obtain ⟨us, hus, -⟩ := h t ts ht hts
  have hcolon : Scans after (':' :: (s ++ t)) (.mark ':' :: us) := .token (t := .mark ':') ⟨by decide, by decide⟩ hus
  obtain ⟨vs, hvs, hnext⟩ := exists_scans_gap hg hcolon
  have htoken := Scans.token (t := .key k) ⟨hk, hnext.2 rfl⟩ hvs
  refine ⟨.key k :: vs, ?_, id⟩
  simpa [Token.text] using htoken

theorem scannable_of_spells {st : Style} (hgap : ∀ g, st.gap g → IsGap g) {p : Part} (h : Spells st s p) :
    Scannable after s := by
  have hg {g : List Char} (hg : st.gap g) : Scannable after g := scannable_gap (hgap g hg)
  have hmark {c : Char} (hc : c ∈ [',', '[', ']', '\x7b', '\x7d']) : Scannable after [c] := by
    have hmarks : ∀ c ∈ [',', '[', ']', '\x7b', '\x7d'], isBlank c = false ∧ c ∉ ['"', '/', '\\'] :=
      forall_mem_of_all (by decide)
    refine scannable_mark (hmarks c hc) ?_
    rintro rfl
    exact absurd hc (by decide)
  induction h with
  | word hw => exact scannable_word hw
  | text hb => exact scannable_value hb
  | emptyList h | emptyRecord h => exact .cons (hmark (by simp)) ((hg h).append (hmark (by simp)))
  | trailingItem _ h | trailingMember _ h => exact .cons (hmark (by simp)) ((hg h).append (hmark (by simp)))
  | list h _ ih | record h _ ih | nextItem h _ ih | nextMember h _ ih =>
    exact .cons (hmark (by simp)) ((hg h).append ih)
  | item _ h _ ihs iht => exact ihs.append ((hg h).append iht)
  | lastItem | lastMember => exact hmark (by simp)
  | member hk h₁ h₂ _ h₃ _ ihs iht | extra hk _ h₁ h₂ _ h₃ _ ihs iht =>
    exact .key hk (hgap _ h₁) ((hg h₂).append (ihs.append ((hg h₃).append iht)))
  | bare hk _ h₁ h₂ _ iht => exact .key hk (hgap _ h₁) ((hg h₂).append iht)

theorem exists_scans {d : Document} (h : annotated.Whole s d) : ∃ ts, Scans [] s ts := by
  obtain ⟨g, u, g', rfl, hg, hg', hu⟩ := h
  have hall : Scannable [] (g ++ (u ++ g')) :=
    (scannable_gap hg).append ((scannable_of_spells (fun _ => id) hu).append (scannable_gap hg'))
  obtain ⟨ts, hts, -⟩ := hall [] [] .nil id
  exact ⟨ts, by rwa [List.append_nil] at hts⟩

/-! ### Comments -/

/-- The comments among the tokens of a text are the ones found in it, whatever stands behind the text. -/
theorem Scans.exists_comments (h : Scans after s ts) (before rest : List Char) : ∃ cs,
    commentsBehind before (s ++ rest) = cs ++ commentsBehind (before ++ s) rest ∧ cs.map Prod.snd = inners ts := by
  induction h generalizing before with
  | nil => exact ⟨[], by rw [List.append_nil]; rfl, rfl⟩
  | @blank c s ts hc _ ih =>
    obtain ⟨cs, hcs, hinners⟩ := ih (before ++ [c])
    rw [List.append_assoc, List.singleton_append, ← commentsBehind_char] at hcs
    · exact ⟨cs, hcs, hinners⟩
    · rintro rfl; contradiction
    · rintro rfl; contradiction
  | @token t s ts ht _ ih =>
    obtain ⟨cs, hcs, hinners⟩ := ih (before ++ t.text)
    rw [List.append_assoc] at hcs
    have hliteral {b : List Char} (hb : IsBody b) :
        commentsBehind before (Token.text (.value b) ++ s ++ rest) =
          commentsBehind (before ++ Token.text (.value b)) (s ++ rest) := by
      simpa [Token.text] using commentsBehind_literal hb before (s ++ rest)
    cases t with
    | comment inner =>
      refine ⟨(before, inner) :: cs, ?_, congrArg (inner :: ·) hinners⟩
      have hcomment := commentsBehind_comment ht before (s ++ rest)
      rw [List.cons_append, ← hcs]
      simpa [Token.text] using hcomment
    | key b => exact ⟨cs, (hliteral ht.1).trans hcs, hinners⟩
    | value b => exact ⟨cs, (hliteral ht.1).trans hcs, hinners⟩
    | mark c =>
      have hmark := ht.2
      simp only [List.mem_cons, List.not_mem_nil, or_false, not_or] at hmark
      exact ⟨cs, (commentsBehind_char hmark.1 hmark.2.1 before (s ++ rest)).trans hcs, hinners⟩

end Template
end MockRedirect
