import MockRedirect.Proofs.Ascii
import MockRedirect.Proofs.Pattern
import MockRedirect.Rule.Filter
/-! The language of URL filters, said without patterns: where a filter lays its tokens over a URL,
for every filter text and every URL of one line. -/
namespace MockRedirect
open Text

/-! ### The language -/

/-- Whether a character is of a kind when case does not count. -/
def UpToCase (kind : Char → Prop) (c : Char) : Prop := ∃ d, folded c = folded d ∧ kind d

namespace Anchor

/-- How an anchor is written. -/
def bars : Anchor → List Char
  | none => []
  | start => ['|']
  | host => ['|', '|']

/-- A letter, and then letters, digits, `+`, `.` and `-`. -/
def IsScheme (s : List Char) : Prop :=
  ∃ c cs, s = c :: cs ∧ UpToCase (·.isAlpha = true) c ∧
    ∀ d ∈ cs, UpToCase (fun e => e.isAlphanum = true ∨ e ∈ "+.-".toList) d

/-- What can stand in a URL before the place where an anchor lets the tokens begin. -/
inductive Allows : Anchor → List Char → Prop
  | anywhere (pre : List Char) : Allows none pre
  | start : Allows start []
  | scheme {s : List Char} (hs : IsScheme s) : Allows host (s ++ "://".toList)
  | dot {s inside : List Char} (hs : IsScheme s) (hi : ∀ c ∈ inside, c ∉ "/?#".toList) :
    Allows host (s ++ "://".toList ++ inside ++ ['.'])

end Anchor

namespace Token

/-- No letter, no digit, and none of `_ - . %`. -/
def Separates (c : Char) : Prop :=
  ¬ UpToCase (fun d => d.isAlphanum = true ∨ d ∈ "_-.%".toList) c

/-- Tokens laid one after the other over a stretch of a URL that goes on with `post`. -/
inductive Laid : List Token → List Char → List Char → Prop
  | done {post : List Char} : Laid [] [] post
  | any {ts : List Token} {s post : List Char} (run : List Char) (rest : Laid ts s post) :
    Laid (any :: ts) (run ++ s) post
  | separator {ts : List Token} {c : Char} {s post : List Char} (hc : Separates c)
    (rest : Laid ts s post) : Laid (separator :: ts) (c :: s) post
  | atEnd {ts : List Token} (rest : Laid ts [] []) : Laid (separator :: ts) [] []
  | char {ts : List Token} {c d : Char} {s post : List Char} (hd : folded d = folded c)
    (rest : Laid ts s post) : Laid (char c :: ts) (d :: s) post

end Token

namespace UrlFilter

/-- A filter text cut into the bars of its anchor, its body, and a bar at the end. The anchor takes
the bars in front as far as it can, and then the last bar is cut off if there is one. -/
structure Reads (text : List Char) (anchor : Anchor) (body : List Char) (atEnd : Bool) : Prop where
  text_eq : text = anchor.bars ++ body ++ if atEnd then ['|'] else []
  no_bar : anchor = .none → text.head? ≠ some '|'
  one_bar : anchor = .start → ∀ rest, text ≠ '|' :: '|' :: rest
  no_end : atEnd = false → body.getLast? ≠ some '|'

/-- What the text of a filter says about a URL. -/
def Describes (text url : List Char) : Prop :=
  ∃ anchor body atEnd, Reads text anchor body atEnd ∧
    ∃ pre mid post, url = pre ++ mid ++ post ∧ Anchor.Allows anchor pre ∧
      Token.Laid (body.map Token.of) mid post ∧ (atEnd = true → post = [])

end UrlFilter

/-! ### Sets of characters -/

/-- A set of folded ASCII characters holds those that are of its kind when case does not count. -/
theorem upToCase_iff {kind : Char → Prop} (set : Char → Bool)
    (hset : ∀ d, set d = true → d.toNat < 128) (hkind : ∀ d, kind d → d.toNat < 128)
    (h : ∀ n, n < 128 → (set (Char.ofNat n) = true → kind (Char.ofNat n)) ∧
      (kind (Char.ofNat n) → set (folded (Char.ofNat n)) = true)) {c : Char} :
    set (folded c) = true ↔ UpToCase kind c := by
  constructor
  · intro hc
    have hk := (of_ascii (p := fun d => (set d = true → kind d) ∧
      (kind d → set (folded d) = true)) h (hset _ hc)).1 hc
    exact ⟨folded c, (folded_folded c).symm, hk⟩
  · rintro ⟨d, he, hd⟩
    rw [he]
    exact (of_ascii (p := fun d => (set d = true → kind d) ∧
      (kind d → set (folded d) = true)) h (hkind d hd)).2 hd

theorem toNat_lt_of_mem {d : Char} {others : List Char} (ho : ∀ e ∈ others, e.toNat < 128)
    (h : d.isAlphanum = true ∨ d ∈ others) : d.toNat < 128 :=
  h.elim toNat_lt_of_isAlphanum (ho d)

namespace Anchor

theorem isSchemeLetter_iff {c : Char} :
    isSchemeLetter c = true ↔ UpToCase (·.isAlpha = true) c :=
  upToCase_iff isAsciiLower (fun _ => toNat_lt_of_isAsciiLower)
    (fun _ hd => toNat_lt_of_isAlphanum (by simp [Char.isAlphanum, hd])) (by decide +kernel)

theorem isSchemeChar_iff {c : Char} : isSchemeChar c = true ↔
    UpToCase (fun d => d.isAlphanum = true ∨ d ∈ "+.-".toList) c := by
  refine upToCase_iff
    (fun d => isAsciiLower d || isAsciiDigit d || d == '+' || d == '.' || d == '-') ?_
    (fun _ => toNat_lt_of_mem (forall_mem_of_all (by decide))) (by decide +kernel)
  intro d hd
  simp only [Bool.or_eq_true, beq_iff_eq] at hd
  rcases hd with (((hd | hd) | rfl) | rfl) | rfl
  · exact toNat_lt_of_isAsciiLower hd
  · exact toNat_lt_of_isAsciiDigit hd
  all_goals decide

theorem isInside_iff {c : Char} : isInside c = true ↔ c ∉ "/?#".toList := by
  simp [isInside, and_assoc]

end Anchor

theorem Token.isSeparator_iff {c : Char} : isSeparator c = true ↔ Separates c := by
  have h : (!isSeparator c) = true ↔
      UpToCase (fun d => d.isAlphanum = true ∨ d ∈ "_-.%".toList) c := by
    simp only [isSeparator, Bool.not_not]
    refine upToCase_iff (fun d => isAsciiLower d || isAsciiDigit d || d == '_' || d == '-' ||
      d == '.' || d == '%') ?_ (fun _ => toNat_lt_of_mem (forall_mem_of_all (by decide)))
      (by decide +kernel)
    intro d hd
    simp only [Bool.or_eq_true, beq_iff_eq] at hd
    rcases hd with ((((hd | hd) | rfl) | rfl) | rfl) | rfl
    · exact toNat_lt_of_isAsciiLower hd
    · exact toNat_lt_of_isAsciiDigit hd
    all_goals decide
  rw [Separates, ← h]
  simp

/-! ### Patterns of filters -/

namespace Anchor

theorem spans_host {pre s post : List Char} :
    host.pattern.Spans pre s post ↔ pre = [] ∧ Allows host s := by
  simp only [pattern, Pattern.spans_chain_cons, Pattern.Spans, isSchemeLetter_iff,
    isSchemeChar_iff, isInside_iff]
  constructor
  · rintro ⟨_, _, rfl, ⟨rfl, rfl⟩, _, _, rfl, ⟨c, hc, rfl⟩, cs, _, rfl, hcs, _, _, rfl, ⟨_, h₁, rfl⟩,
      _, _, rfl, ⟨_, h₂, rfl⟩, _, _, rfl, ⟨_, h₃, rfl⟩, w, _, rfl, hw, rfl⟩
    refine ⟨rfl, ?_⟩
    rw [beq_iff_eq] at h₁ h₂ h₃
    subst h₁ h₂ h₃
    have hs : IsScheme (c :: cs) := ⟨c, cs, rfl, hc, hcs⟩
    rcases hw with ⟨inside, _, rfl, hi, _, _, rfl, ⟨_, hd, rfl⟩, rfl⟩ | rfl
    · rw [beq_iff_eq] at hd
      subst hd
      simpa using Allows.dot hs hi
    · simpa using Allows.scheme hs
  · rintro ⟨rfl, h⟩
    cases h with
    | scheme hs =>
      obtain ⟨c, cs, rfl, hc, hcs⟩ := hs
      exact ⟨[], _, rfl, ⟨rfl, rfl⟩, [c], _, rfl, ⟨c, hc, rfl⟩, cs, _, rfl, hcs, [':'], _, rfl,
        ⟨_, rfl, rfl⟩, ['/'], _, rfl, ⟨_, rfl, rfl⟩, ['/'], _, rfl, ⟨_, rfl, rfl⟩, [], [], rfl,
        .inr rfl, rfl⟩
    | @dot s inside hs hi =>
      obtain ⟨c, cs, rfl, hc, hcs⟩ := hs
      exact ⟨[], _, rfl, ⟨rfl, rfl⟩, [c], cs ++ "://".toList ++ inside ++ ['.'], by simp,
        ⟨c, hc, rfl⟩, cs, "://".toList ++ inside ++ ['.'], by simp, hcs, [':'], _, rfl,
        ⟨_, rfl, rfl⟩, ['/'], _, rfl, ⟨_, rfl, rfl⟩, ['/'], _, rfl, ⟨_, rfl, rfl⟩,
        inside ++ ['.'], [], by simp, .inl ⟨inside, ['.'], rfl, hi, ['.'], [], rfl, ⟨_, rfl, rfl⟩,
        rfl⟩, rfl⟩

/-- What an anchor spans, together with what stands before it, is what it allows. -/
theorem spans_iff_allows {a : Anchor} {front : List Char} (post : List Char) :
    (∃ pre u, front = pre ++ u ∧ a.pattern.Spans pre u post) ↔ Allows a front := by
  cases a with
  | none =>
    constructor
    · intro _
      exact .anywhere front
    · intro _
      exact ⟨front, [], by simp, rfl⟩
  | start =>
    constructor
    · rintro ⟨_, _, rfl, rfl, rfl⟩
      exact .start
    · rintro ⟨⟩
      exact ⟨[], [], rfl, rfl, rfl⟩
  | host =>
    simp only [spans_host]
    constructor
    · rintro ⟨_, u, rfl, rfl, h⟩
      exact h
    · intro h
      exact ⟨[], front, rfl, rfl, h⟩

end Anchor

namespace Token

/-- On one line, a chain of tokens spans a stretch when they can be laid over it. -/
theorem spans_iff_laid {ts : List Token} {pre s post : List Char} (hs : '\n' ∉ s) :
    (Pattern.chain (ts.map pattern)).Spans pre s post ↔ Laid ts s post := by
  induction ts generalizing pre s with
  | nil =>
    constructor
    · rintro rfl
      exact .done
    · rintro ⟨⟩
      rfl
  | cons t ts ih =>
    rw [List.map_cons, Pattern.spans_chain_cons]
    constructor
    · rintro ⟨u, v, rfl, ht, hts⟩
      have hv := (ih (fun h => hs (by simp [h]))).1 hts
      cases t with
      | any => exact .any u hv
      | separator =>
        rcases ht with ⟨c, hc, rfl⟩ | ⟨rfl, he⟩
        · exact .separator (isSeparator_iff.1 hc) hv
        · obtain ⟨rfl, rfl⟩ := List.append_eq_nil_iff.1 he
          exact .atEnd hv
      | char c =>
        obtain ⟨d, hd, rfl⟩ := ht
        exact .char (by simpa using hd) hv
    · intro h
      cases h with
      | @any _ v _ run rest =>
        refine ⟨run, v, rfl, ?_, (ih fun h => hs (by simp [h])).2 rest⟩
        intro c hc
        have hn : c ≠ '\n' := fun he => hs (he ▸ List.mem_append_left v hc)
        simpa using hn
      | @separator _ c v _ hc rest =>
        exact ⟨[c], v, rfl, .inl ⟨c, isSeparator_iff.2 hc, rfl⟩, (ih fun h => hs (by simp [h])).2 rest⟩
      | atEnd rest => exact ⟨[], [], rfl, .inr ⟨rfl, rfl⟩, (ih hs).2 rest⟩
      | @char _ c d v _ hd rest =>
        exact ⟨[d], v, rfl, ⟨d, by simpa using hd, rfl⟩, (ih fun h => hs (by simp [h])).2 rest⟩

end Token

namespace UrlFilter

theorem spans_end {atEnd : Bool} {pre s post : List Char} :
    (if atEnd then Pattern.finish else .empty).Spans pre s post ↔
      s = [] ∧ (atEnd = true → post = []) := by
  cases atEnd <;> simp [Pattern.Spans]

/-- Where the pattern of a filter occurs in a URL: the anchor up to some place, the tokens from there
on, and the end where the filter asks for it. -/
theorem occursIn_iff {f : UrlFilter} {url : List Char} :
    f.pattern.OccursIn url ↔
      ∃ front mid post, url = front ++ mid ++ post ∧ Anchor.Allows f.anchor front ∧
        (Pattern.chain (f.tokens.map Token.pattern)).Spans front mid post ∧
        (f.atEnd = true → post = []) := by
  simp only [Pattern.OccursIn, pattern, List.cons_append, Pattern.spans_chain_cons,
    Pattern.spans_chain_append, Pattern.spans_chain_nil, spans_end]
  constructor
  · rintro ⟨pre, _, post, rfl, u, _, rfl, ha, v, _, rfl, ht, _, _, rfl, ⟨rfl, he⟩, rfl⟩
    have hf : Anchor.Allows f.anchor (pre ++ u) := (Anchor.spans_iff_allows _).1 ⟨pre, u, rfl, ha⟩
    exact ⟨pre ++ u, v, post, by simp, hf, by simpa using ht, by simpa using he⟩
  · rintro ⟨front, mid, post, rfl, hf, ht, he⟩
    obtain ⟨pre, u, rfl, ha⟩ := (Anchor.spans_iff_allows (mid ++ post)).2 hf
    exact ⟨pre, u ++ mid, post, by simp, u, mid, rfl, ha, mid, [], by simp, by simpa using ht, [], [],
      rfl, ⟨rfl, by simpa using he⟩, rfl⟩

/-! ### Reading filters -/

theorem dropLast?_eq_some {c : Char} {s b : List Char} : dropLast? c s = some b ↔ s = b ++ [c] := by
  unfold dropLast?
  constructor
  · intro h
    split at h
    · next hl =>
      obtain rfl : s.dropLast = b := by simpa using h
      obtain ⟨t, rfl⟩ := List.getLast?_eq_some_iff.1 hl
      simp
    · simp at h
  · rintro rfl
    simp

theorem dropLast?_eq_none {c : Char} {s : List Char} : dropLast? c s = none ↔ s.getLast? ≠ some c := by
  simp [dropLast?]

/-- The anchor is cut off as far as the bars in front go. -/
theorem cutAnchor_eq_iff {s rest : List Char} {a : Anchor} : cutAnchor s = (a, rest) ↔
    s = a.bars ++ rest ∧ (a = .none → s.head? ≠ some '|') ∧
      (a = .start → ∀ t, s ≠ '|' :: '|' :: t) := by
  constructor
  · intro h
    unfold cutAnchor at h
    split at h
    · cases h
      exact ⟨rfl, nofun, nofun⟩
    · next t hne =>
      cases h
      exact ⟨rfl, nofun, fun _ u he => hne u (by simpa using he)⟩
    · next hhost hstart =>
      cases h
      refine ⟨rfl, fun _ hb => ?_, nofun⟩
      obtain ⟨t, rfl⟩ := List.head?_eq_some_iff.1 hb
      exact hstart t rfl
  · rintro ⟨rfl, hn, h1⟩
    cases a with
    | none =>
      have hb : ∀ t, rest ≠ '|' :: t := fun t he => hn rfl (by simp [he, Anchor.bars])
      unfold cutAnchor
      split
      · next t he => exact absurd he (hb _)
      · next t _ he => exact absurd he (hb _)
      · rfl
    | start =>
      have hb : ∀ t, rest ≠ '|' :: t := fun t he => h1 rfl t (by simp [he, Anchor.bars])
      cases rest with
      | nil => rfl
      | cons c t => simp [cutAnchor, Anchor.bars]
    | host => rfl

theorem reads_iff {s body : List Char} {a : Anchor} {atEnd : Bool} : Reads s a body atEnd ↔
    cutAnchor s = (a, body ++ if atEnd then ['|'] else []) ∧
      (atEnd = false → body.getLast? ≠ some '|') := by
  rw [cutAnchor_eq_iff]
  constructor
  · rintro ⟨ht, hn, h1, he⟩
    exact ⟨⟨by simpa using ht, hn, h1⟩, he⟩
  · rintro ⟨⟨ht, hn, h1⟩, he⟩
    exact ⟨by simpa using ht, hn, h1, he⟩

/-- Reading accepts the texts of ASCII characters that are not empty, and cuts them as `Reads` says. -/
theorem parse_eq_ok_iff {text : String} {f : UrlFilter} : parse text = .ok f ↔
    text.toList ≠ [] ∧ isAscii text.toList = true ∧
      ∃ body, Reads text.toList f.anchor body f.atEnd ∧ f.tokens = body.map Token.of := by
  obtain ⟨anchor, tokens, atEnd⟩ := f
  simp only [parse, reads_iff]
  by_cases hne : text.toList = []
  · simp [hne]
  by_cases ha : isAscii text.toList = true
  case neg => simp [hne, ha]
  rcases hc : cutAnchor text.toList with ⟨a, rest⟩
  simp only [hne, ha, if_false, Bool.not_true, Prod.mk.injEq, ne_eq, not_false_iff, true_and]
  cases hd : dropLast? '|' rest with
  | none =>
    have hl := dropLast?_eq_none.1 hd
    constructor
    · intro h
      cases h
      exact ⟨rest, ⟨⟨rfl, by simp⟩, fun _ => hl⟩, rfl⟩
    · rintro ⟨body, ⟨⟨rfl, rfl⟩, _⟩, rfl⟩
      cases atEnd with
      | true => simp at hl
      | false => simp
  | some b =>
    obtain rfl := dropLast?_eq_some.1 hd
    constructor
    · intro h
      cases h
      exact ⟨b, ⟨⟨rfl, by simp⟩, nofun⟩, rfl⟩
    · rintro ⟨body, ⟨⟨rfl, he⟩, hl⟩, rfl⟩
      cases atEnd with
      | true =>
        obtain rfl : b = body := by simpa using he
        rfl
      | false =>
        obtain rfl : b ++ ['|'] = body := by simpa using he
        simp at hl

theorem exists_parse {text : String} (hne : text ≠ "") (ha : isAscii text.toList = true) :
    ∃ f, parse text = .ok f := by
  have hs : text.toList ≠ [] := by simpa using hne
  simp only [parse, hs, ha, if_false, Bool.not_true]
  cases dropLast? '|' (cutAnchor text.toList).2 with
  | none => exact ⟨_, rfl⟩
  | some b => exact ⟨_, rfl⟩

/-- The filter that is read from a text admits the URLs of one line that the text describes. -/
theorem admits_iff_describes {text : String} {f : UrlFilter} (hf : parse text = .ok f)
    {url : String} (hurl : '\n' ∉ url.toList) :
    f.admits url = true ↔ Describes text.toList url.toList := by
  obtain ⟨_, _, body, hr, hts⟩ := parse_eq_ok_iff.1 hf
  rw [admits, Pattern.isIn_iff, occursIn_iff]
  constructor
  · rintro ⟨front, mid, post, he, ha, ht, hp⟩
    have hmid : '\n' ∉ mid := fun h => hurl (by simp [he, h])
    rw [Token.spans_iff_laid hmid, hts] at ht
    exact ⟨f.anchor, body, f.atEnd, hr, front, mid, post, he, ha, ht, hp⟩
  · rintro ⟨anchor, body', atEnd, hr', front, mid, post, he, ha, ht, hp⟩
    have hf' : parse text = .ok ⟨anchor, body'.map Token.of, atEnd⟩ :=
      parse_eq_ok_iff.2 ⟨(parse_eq_ok_iff.1 hf).1, (parse_eq_ok_iff.1 hf).2.1, body', hr', rfl⟩
    obtain rfl : f = ⟨anchor, body'.map Token.of, atEnd⟩ := by simpa [hf] using hf'
    have hmid : '\n' ∉ mid := fun h => hurl (by simp [he, h])
    exact ⟨front, mid, post, he, ha, (Token.spans_iff_laid hmid).2 ht, hp⟩

/-- A filter text is read when it is not empty and ASCII, and what is read from it admits, of the URLs
of one line, exactly those that the text describes. -/
theorem parse_describes (text : String) :
    ((∃ f, parse text = .ok f) ↔ text ≠ "" ∧ isAscii text.toList = true) ∧
      ∀ f, parse text = .ok f → ∀ url : String, '\n' ∉ url.toList →
        (f.admits url = true ↔ Describes text.toList url.toList) := by
  constructor
  · constructor
    · rintro ⟨f, hf⟩
      obtain ⟨hne, ha, _⟩ := parse_eq_ok_iff.1 hf
      exact ⟨fun he => hne (by simp [he]), ha⟩
    · rintro ⟨hne, ha⟩
      exact exists_parse hne ha
  · intro f hf url hurl
    exact admits_iff_describes hf hurl

/-- A host filter describes URLs of a subdomain, but not those of a longer name. -/
theorem parse_describes_host :
    Describes "||a.com^*x|".toList "http://b.A.com?1x".toList ∧
      ¬ Describes "||a.com^*x|".toList "http://xa.com/x".toList := by
  have hf : parse "||a.com^*x|" = .ok ⟨.host, "a.com^*x".toList.map Token.of, true⟩ :=
    parse_eq_ok_iff.2 ⟨by decide, by decide, "a.com^*x".toList, ⟨by decide, nofun, nofun, nofun⟩, rfl⟩
  have h := (parse_describes "||a.com^*x|").2 _ hf
  constructor
  · exact (h "http://b.A.com?1x" (by decide)).1 (by decide +kernel)
  · intro hd
    have ha := (h "http://xa.com/x" (by decide)).2 hd
    exact absurd ha (by decide +kernel)

end UrlFilter
end MockRedirect
