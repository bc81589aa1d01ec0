import MockRedirect.Proofs.Filter
import MockRedirect.Proofs.RuleText
import MockRedirect.Proofs.Transaction
/-! Tables on files. After every transaction that goes through, the file holds the table, and opening it
gives the same table; after any other one the file is as it was. -/
namespace MockRedirect
open List

/-! ### Tables -/

namespace Table

variable {t : Table}

/-- The numbers of all rules have 32 bits. -/
def InWords (t : Table) : Prop := ∀ r ∈ t, r.InWords

theorem toList_fileText (t : Table) :
    (fileText t).toList = (Json.arr (t.map Rule.toJson)).pretty 0 ++ ['\n'] := by
  rw [fileText, Json.prettyText, String.toList_append, String.toList_ofList]
  rfl

/-- A table is read back from its file. -/
theorem parse_fileText (h : InWords t) : parse (fileText t) = .ok t := by
  have hblank : ¬Text.isBlankText (fileText t) = true := by
    rw [Text.isBlankText, toList_fileText]
    cases t <;> exact Bool.false_ne_true
  have hrecovers : Rule.decoder.list.Recovers (.arr (t.map Rule.toJson)) t :=
    .list (forall₂_map_left_iff.2 (forall₂_same.2 fun r hr => Rule.recovers (h r hr)))
  have hevery : (Json.arr (t.map Rule.toJson)).Every (fun _ => True) Json.Lasting := by
    rw [Json.every_arr, forall_mem_map]
    exact fun r hr => Rule.every_toJson (h r hr)
  have hdepth : (Json.arr (t.map Rule.toJson)).depth ≤ Json.depthLimit := by
    have hrules : (Json.arr (t.map Rule.toJson)).depth ≤ 3 + 1 := by
      rw [Json.depth_arr_le, forall_mem_map]
      exact fun r _ => r.depth_toJson_le
    exact hrules.trans (by decide)
  rw [parse, if_neg hblank, toList_fileText]
  exact hrecovers.parse hevery hdepth

theorem inWords_of_parse {text : String} (h : parse text = .ok t) : InWords t := by
  rw [parse] at h
  split at h
  · cases h
    intro r hr
    contradiction
  · exact Rule.inWords_of_parse h

end Table

/-- The numbers of the rules that a transaction adds have 32 bits. -/
def Transaction.InWords (tx : Transaction) : Prop := ∀ r ∈ tx.added, r.InWords

/-! ### Engines -/

namespace Engine

variable {e : Engine} {text : Option String} {tx : Transaction} {steps : List (Bool × Transaction)}

/-- An engine whose table is kept on a file, absent or not, and can be written to it. -/
structure Filed (e : Engine) : Prop where
  file : ∃ text, e.backing = .file text
  words : e.table.InWords

theorem filed_of_openFile (h : openFile text = .ok e) : Filed e := by
  cases text with
  | none =>
    cases h
    exact ⟨⟨none, rfl⟩, fun r hr => by contradiction⟩
  | some s =>
    cases ht : Table.parse s with
    | error cause =>
      rw [openFile, ht] at h
      contradiction
    | ok t =>
      rw [openFile, ht] at h
      cases h
      exact ⟨⟨some s, rfl⟩, Table.inWords_of_parse ht⟩

theorem Filed.holding (h : Filed e) {t : Table} (ht : t.InWords) : Filed (e.holding t) := by
  obtain ⟨⟨text, hfile⟩, -⟩ := h
  refine ⟨⟨some (Table.fileText t), ?_⟩, ht⟩
  rw [Engine.holding, hfile]

theorem inWords_sorted {kept : Table} {added : List Rule} (hkept : kept.InWords)
    (hadded : ∀ r ∈ added, r.InWords) : Table.InWords (Table.sorted (kept ++ added)) := by
  intro r hr
  rw [(Table.sorted_perm _).mem_iff, mem_append] at hr
  exact hr.elim (hkept r) (hadded r)

/-- What one transaction makes of a table on a file: if it goes through, the file is opened again as it
is in memory, and otherwise nothing has changed. -/
theorem Filed.transact (h : Filed e) (writable : Bool) (htx : tx.InWords) :
    let out := (transact writable tx).run e
    Filed out.2 ∧
    (out.1 = .ok () → ∃ text, out.2.backing = .file (some text) ∧ openFile (some text) = .ok out.2) ∧
    (∀ cause, out.1 = .error cause → out.2 = e) := by
  obtain ⟨-, -, hrun⟩ | ⟨-, fault, hrun⟩ | ⟨-, hrun⟩ := run_transact_cases writable tx e
  · have hwords : Table.InWords (Table.sorted (e.table.survivors tx ++ tx.added)) :=
      inWords_sorted (fun r hr => h.words r ((Table.survivors_sublist _ _).subset hr)) htx
    rw [hrun]
    refine ⟨h.holding hwords, fun _ => ?_, fun cause hcause => by contradiction⟩
    obtain ⟨text, hfile⟩ := h.file
    rw [Engine.holding, hfile]
    exact ⟨_, rfl, by rw [openFile, Table.parse_fileText hwords]; rfl⟩
  · rw [hrun]
    exact ⟨h, fun hok => by contradiction, fun _ _ => rfl⟩
  · rw [hrun]
    exact ⟨h, fun hok => by contradiction, fun _ _ => rfl⟩

theorem Filed.transactAll (h : Filed e) (hsteps : ∀ step ∈ steps, step.2.InWords) :
    Filed (e.transactAll steps) := by
  induction steps generalizing e with
  | nil => exact h
  | cons step steps ih =>
    rw [forall_mem_cons] at hsteps
    exact ih (h.transact step.1 hsteps.1).1 hsteps.2

/-- The file of a table holds what the table holds in memory. Whatever transactions an engine has seen
since its file was opened, some of them refused and some not written: when the next one goes through,
opening the file gives the same engine, with the same rules in the same order; when it does not, neither
the table nor the file has changed. -/
theorem file_mirrors_table (hopen : openFile text = .ok e) (hsteps : ∀ step ∈ steps, step.2.InWords)
    (writable : Bool) (htx : tx.InWords) :
    let before := e.transactAll steps
    let out := (transact writable tx).run before
    (out.1 = .ok () → ∃ text, out.2.backing = .file (some text) ∧ openFile (some text) = .ok out.2) ∧
    (∀ cause, out.1 = .error cause → out.2 = before) :=
  (((filed_of_openFile hopen).transactAll hsteps).transact writable htx).2

/-- A rule of the highest priority, with a quote and a letter that is not ASCII in its redirect. -/
def outrankingRule : Rule :=
  ⟨70000, 4294967295, .redirect "data:,\"\u00e9", ⟨"a*", [.script], []⟩⟩

/-- The rule is installed at the second try; at the first one the file cannot be written. -/
theorem file_mirrors_table_outranking :
    let before := transactAll ⟨[], .file none⟩ [(false, ⟨[], [outrankingRule]⟩)]
    let out := (transact true ⟨[], [outrankingRule]⟩).run before
    out.1 = .ok () ∧ ∃ text, out.2.backing = .file (some text) ∧ openFile (some text) = .ok out.2 := by
  intro before out
  have hwords : Transaction.InWords ⟨[], [outrankingRule]⟩ := by
    intro r hr
    obtain rfl := mem_singleton.1 hr
    exact ⟨by decide, by decide⟩
  have hsteps : ∀ step ∈ [(false, (⟨[], [outrankingRule]⟩ : Transaction))], step.2.InWords := by
    simpa using hwords
  have haccepts : Table.Accepts [] [outrankingRule] := by
    refine ⟨by decide, by decide, by decide, fun r hr => ?_, by decide⟩
    obtain rfl := mem_singleton.1 hr
    exact UrlFilter.exists_parse (by decide) (by decide)
  have hbefore : before = ⟨[], .file none⟩ := by
    obtain ⟨-, hw, -⟩ | ⟨hno, -⟩ | ⟨-, hrun⟩ :=
      run_transact_cases false ⟨[], [outrankingRule]⟩ ⟨[], .file none⟩
    · simp [CanWrite] at hw
    · exact absurd haccepts hno
    · exact congrArg Prod.snd hrun
  have hok : out.1 = .ok () := by
    refine (run_transact_eq_ok_iff true _ before).2 ⟨?_, .inr rfl⟩
    rw [hbefore]
    exact haccepts
  have hopen : openFile none = .ok ⟨[], .file none⟩ := rfl
  exact ⟨hok, (file_mirrors_table hopen hsteps true hwords).1 hok⟩

end Engine
end MockRedirect
