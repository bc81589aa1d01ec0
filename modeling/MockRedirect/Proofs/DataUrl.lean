import MockRedirect.Command.Run
import MockRedirect.Proofs.Plan
import MockRedirect.Proofs.Resolved
import MockRedirect.Proofs.Utf8
/-! Data URLs: the redirect of a mock carries the compact text of its body. Whatever characters the text has, it is
written in those that need no encoding and in bytes with a percent sign, and it is read back as it was. -/
namespace MockRedirect
open Text

namespace Text

/-! ### Writing -/

/-- A digit, or one of the letters `A` to `F`. -/
def isHexUpper (c : Char) : Bool := isAsciiDigit c || ('A' ≤ c && c ≤ 'F')

/-- Letters, digits, `-`, `_`, `.` and `~`, and percent signs with two upper-case hexadecimal digits each. -/
inductive PercentEncoded : List Char → Prop
  | nil : PercentEncoded []
  | char {c : Char} {s : List Char} (hc : isUnreserved c = true) (rest : PercentEncoded s) :
    PercentEncoded (c :: s)
  | byte {a b : Char} {s : List Char} (ha : isHexUpper a = true) (hb : isHexUpper b = true)
    (rest : PercentEncoded s) : PercentEncoded ('%' :: a :: b :: s)

theorem isHexUpper_hexUpper : ∀ n < 16, isHexUpper (hexUpper n) = true := by decide

theorem percentEncoded_bytes {bs : List Nat} (hbs : ∀ b ∈ bs, b < 256) {s : List Char} (hs : PercentEncoded s) :
    PercentEncoded (bs.flatMap percentByte ++ s) := by
  induction bs with
  | nil => exact hs
  | cons b bs ih =>
    rw [List.forall_mem_cons] at hbs
    rw [List.flatMap_cons, List.append_assoc]
    exact .byte (isHexUpper_hexUpper _ (by omega)) (isHexUpper_hexUpper _ (by omega)) (ih hbs.2)

theorem percentEncoded_percentEncode (s : List Char) : PercentEncoded (percentEncode isUnreserved s) := by
  induction s with
  | nil => exact .nil
  | cons c s ih =>
    rw [percentEncode, List.flatMap_cons, ← percentEncode]
    split
    · next hc => exact .char hc ih
    · exact percentEncoded_bytes (fun b hb => lt_of_mem_utf8Char hb) ih

/-! ### Reading -/

theorem hexByte?_hexUpper : ∀ n < 16, hexByte? (hexUpper n).toNat = some n := by decide

theorem toNat_hexUpper_lt : ∀ n < 16, (hexUpper n).toNat < 0x80 := by decide

theorem utf8_append (s t : List Char) : utf8 (s ++ t) = utf8 s ++ utf8 t := List.flatMap_append

/-- A byte in hexadecimal is read as the byte. -/
theorem percentDecode_percentByte {b : Nat} (hb : b < 256) (rest : List Nat) :
    percentDecode (utf8 (percentByte b) ++ rest) = b :: percentDecode rest := by
  have hhigh : b / 16 < 16 := by omega
  have hlow : b % 16 < 16 := by omega
  have hbytes : utf8 (percentByte b) = [0x25, (hexUpper (b / 16)).toNat, (hexUpper (b % 16)).toNat] := by
    rw [percentByte, Address.utf8_cons (by decide), Address.utf8_cons (toNat_hexUpper_lt _ hhigh),
      Address.utf8_cons (toNat_hexUpper_lt _ hlow)]
    rfl
  rw [hbytes]
  simp only [List.cons_append, List.nil_append, percentDecode, hexByte?_hexUpper _ hhigh, hexByte?_hexUpper _ hlow]
  rw [Nat.div_add_mod' b 16]

theorem percentDecode_bytes {bs : List Nat} (hbs : ∀ b ∈ bs, b < 256) (rest : List Nat) :
    percentDecode (utf8 (bs.flatMap percentByte) ++ rest) = bs ++ percentDecode rest := by
  induction bs with
  | nil => rfl
  | cons b bs ih =>
    rw [List.forall_mem_cons] at hbs
    rw [List.flatMap_cons, utf8_append, List.append_assoc, percentDecode_percentByte hbs.1, ih hbs.2, List.cons_append]

/-- Decoding undoes encoding, if what is kept is ASCII and no percent sign. -/
theorem percentDecode_percentEncode {keep : Char → Bool} (hkeep : ∀ c, keep c = true → c.toNat < 0x80 ∧ c ≠ '%')
    (s : List Char) : percentDecode (utf8 (percentEncode keep s)) = utf8 s := by
  induction s with
  | nil => rfl
  | cons c s ih =>
    have hstep : percentEncode keep (c :: s) =
        (if keep c then [c] else (utf8Char c).flatMap percentByte) ++ percentEncode keep s := List.flatMap_cons
    have hchar : utf8 (c :: s) = utf8Char c ++ utf8 s := List.flatMap_cons
    rw [hstep, utf8_append, hchar]
    split
    · next hc =>
      obtain ⟨hlow, hne⟩ := hkeep c hc
      have hbyte : c.toNat ≠ 0x25 := fun he => hne (Char.toNat_inj.1 he)
      rw [Address.utf8_cons hlow, utf8Char, if_pos hlow]
      exact (Address.percentDecode_cons hbyte _).trans (congrArg (c.toNat :: ·) ih)
    · rw [percentDecode_bytes fun b hb => lt_of_mem_utf8Char hb, ih]

theorem isUnreserved_cases {c : Char} (h : isUnreserved c = true) : c.toNat < 0x80 ∧ c ≠ '%' := by
  have hplain : isPlain c = true := by simp [isPlain, h]
  refine ⟨isAscii_of_isPlain hplain, ?_⟩
  rintro rfl
  contradiction

end Text

/-! ### Redirects -/

/-- The answer of a redirect to a body is the compact text of the body. -/
theorem Command.answerOf_dataUrl (body : Json) : answerOf (Mock.dataUrl body) = .ok body.compactText := by
  have hcode : after? Mock.dataUrlStart.toList (Mock.dataUrl body).toList =
      some (percentEncode isUnreserved body.compact) := after?_eq_some.2 (by simp [Mock.dataUrl])
  have hdecode := decode_utf8 body.compact
  rw [← percentDecode_percentEncode fun _ => isUnreserved_cases] at hdecode
  rw [answerOf, hcode, Option.getD_some, hdecode]
  rfl

/-- The redirect of a mock is encoded as URLs are, its answer is the compact text of the body, whatever the body is,
and no mock whose body has another text is redirected to the same URL. -/
theorem Mock.redirect_carries_body {m : Mock} {id : Nat} {r : Rule} (h : m.rule id = .ok r) :
    ∃ code, PercentEncoded code ∧ r.action = .redirect (dataUrlStart ++ String.ofList code) ∧
      Command.answerOf (dataUrlStart ++ String.ofList code) = .ok m.body.compactText ∧
      ∀ (m' : Mock) (id' : Nat) (r' : Rule), m'.rule id' = .ok r' →
        m'.body.compactText ≠ m.body.compactText → r'.action ≠ r.action := by
  refine ⟨_, percentEncoded_percentEncode m.body.compact, action_of_rule h, Command.answerOf_dataUrl m.body, ?_⟩
  intro m' id' r' h' hne hsame
  rw [action_of_rule h, action_of_rule h', RuleAction.redirect.injEq] at hsame
  have hanswer := Command.answerOf_dataUrl m'.body
  rw [hsame, Command.answerOf_dataUrl, Except.ok.injEq] at hanswer
  exact hne hanswer.symm

/-- A mock whose body has a quotation mark, a percent sign and a letter that is not ASCII. -/
def Mock.accented : Mock := ⟨⟨1⟩, "", "/a?MT=GET", .get, .str "é%\"", true⟩

theorem Mock.redirect_carries_body_accented : ∃ r code, accented.rule 1 = .ok r ∧ PercentEncoded code ∧
    r.action = .redirect (dataUrlStart ++ String.ofList code) ∧
    Command.answerOf (dataUrlStart ++ String.ofList code) = .ok "\"é%\\\"\"" := by
  obtain ⟨r, hrule⟩ : ∃ r, accented.rule 1 = .ok r := ⟨_, rule_eq_ok_iff.2 ⟨⟨by decide, by decide⟩, rfl⟩⟩
  obtain ⟨code, hcode, haction, hanswer, -⟩ := redirect_carries_body hrule
  exact ⟨r, code, hrule, hcode, haction, hanswer⟩

end MockRedirect
