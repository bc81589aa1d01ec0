import Mathlib.Data.List.Basic
import MockRedirect.Model.Pull
/-! Pulls do not depend on how their stream is cut. What has been read of a stream is settled by the bytes
so far: a chunk more is the same as these bytes with the chunk behind them. The two loops that read a
stream, one after the other, are then a single pass over all of it. -/
namespace MockRedirect
namespace Pull

variable {read : List Nat → Option PullLine} {a : List Nat} {c : Nat}

/-! ### Lines -/

theorem cutLines_newline (a : List Nat) :
    cutLines (newline :: a) = ([] :: (cutLines a).1, (cutLines a).2) := rfl

theorem cutLines_cons (hc : c ≠ newline) (a : List Nat) : cutLines (c :: a) =
    match (cutLines a).1 with
    | [] => ([], c :: (cutLines a).2)
    | l :: ls => ((c :: l) :: ls, (cutLines a).2) := by
  rw [cutLines]
  exact if_neg hc

theorem snd_cutLines_of_nil (h : (cutLines a).1 = []) : (cutLines a).2 = a := by
  induction a with
  | nil => rfl
  | cons c a ih =>
    by_cases hc : c = newline
    · rw [hc, cutLines_newline] at h
      contradiction
    · rw [cutLines_cons hc] at h ⊢
      cases hlines : (cutLines a).1 with
      | nil => exact congrArg (c :: ·) (ih hlines)
      | cons l ls => simp [hlines] at h

/-- The part of a line that is left over is read again in front of what comes next. -/
theorem cutLines_append (a b : List Nat) : cutLines (a ++ b) =
    ((cutLines a).1 ++ (cutLines ((cutLines a).2 ++ b)).1, (cutLines ((cutLines a).2 ++ b)).2) := by
  induction a with
  | nil => rfl
  | cons c a ih =>
    by_cases hc : c = newline
    · rw [hc, List.cons_append, cutLines_newline, cutLines_newline, ih]
      rfl
    · rw [List.cons_append, cutLines_cons hc, cutLines_cons hc a]
      cases hlines : (cutLines a).1 with
      | nil =>
        -- no line is complete, so that all of it is left over
        dsimp only
        rw [snd_cutLines_of_nil hlines, List.cons_append, cutLines_cons hc]
        rfl
      | cons l ls =>
        rw [ih, hlines]
        rfl

/-- The lines of a stream that a newline ends. -/
def terminated (bytes : List Nat) : List (List Nat) := (bytes.splitOn newline).dropLast

theorem fst_cutLines (bytes : List Nat) : (cutLines bytes).1 = terminated bytes := by
  induction bytes with
  | nil => rfl
  | cons c bytes ih =>
    obtain ⟨l, ls, hsplit⟩ := List.exists_cons_of_ne_nil (List.splitOn_ne_nil newline bytes)
    rw [terminated, hsplit] at ih
    rw [terminated, List.splitOn_cons_eq_if_modifyHead, hsplit]
    by_cases hc : c = newline
    · rw [hc, cutLines_newline, ih, if_pos (beq_self_eq_true _)]
      rfl
    · rw [cutLines_cons hc, ih, if_neg (by simpa using hc)]
      cases ls with
      | nil => rfl
      | cons m ls => rfl

theorem takeLines_append (read : List Nat → Option PullLine) (a b : List Nat) : takeLines read (a ++ b) =
    ((takeLines read a).1 ++ (takeLines read ((takeLines read a).2 ++ b)).1,
      (takeLines read ((takeLines read a).2 ++ b)).2) := by
  simp only [takeLines, cutLines_append a b, List.filter_append, List.filterMap_append]

/-- Nothing is lost with the lines that are not even read, if blank lines cannot be. -/
theorem fst_takeLines (hblank : ∀ line, isBlankLine line = true → read line = none) (bytes : List Nat) :
    (takeLines read bytes).1 = (terminated bytes).filterMap read := by
  rw [← fst_cutLines]
  refine (List.filterMap_filter ..).trans (List.filterMap_congr fun line _ => ?_)
  cases hline : isBlankLine line with
  | true => exact (hblank line hline).symm
  | false => rfl

/-! ### Chunks -/

/-- How far a stream of which these bytes have come has been read. -/
def reached (read : List Nat → Option PullLine) (bytes : List Nat) : Progress :=
  let (said, rest) := takeLines read bytes
  match firstError? said with
  | some reason => .failed reason
  | none => if said.isEmpty then .silent rest else .reporting rest

theorem firstError?_append (said lines : List PullLine) :
    firstError? (said ++ lines) = (firstError? said).or (firstError? lines) := List.findSome?_append

/-- A chunk more is the same as the bytes before it with the chunk behind them. -/
theorem feed_reached (a b : List Nat) : (reached read a).feed read b = reached read (a ++ b) := by
  simp only [reached, takeLines_append read a b, firstError?_append]
  cases herror : firstError? (takeLines read a).1 with
  | some reason => rfl
  | none =>
    rw [Option.none_or]
    cases hsaid : (takeLines read a).1 with
    | nil => rfl
    | cons l ls => rfl

/-- Chunk by chunk, or all at once. -/
theorem foldl_feed (chunks : List (List Nat)) (a : List Nat) :
    chunks.foldl (Progress.feed read) (reached read a) = reached read (a ++ chunks.flatten) := by
  induction chunks generalizing a with
  | nil => rw [List.foldl_nil, List.flatten_nil, List.append_nil]
  | cons chunk chunks ih =>
    rw [List.foldl_cons, feed_reached, ih, List.flatten_cons, List.append_assoc]

/-- After an error nothing more counts. -/
theorem foldl_feed_failed (chunks : List (List Nat)) (reason : String) :
    chunks.foldl (Progress.feed read) (.failed reason) = .failed reason := by
  induction chunks with
  | nil => rfl
  | cons chunk chunks ih => exact ih

/-! ### Both loops -/

/-- The state of a download once all of a stream has been read. -/
def Progress.settle (before : State) : Progress → State
  | silent _ => before
  | reporting _ => .idle
  | failed reason => .failed reason

theorem feed_reporting (pending chunk : List Nat) :
    (∃ reason, (Progress.reporting pending).feed read chunk = .failed reason) ∨
      ∃ rest, (Progress.reporting pending).feed read chunk = .reporting rest := by
  rw [Progress.feed]
  cases herror : firstError? (takeLines read (pending ++ chunk)).1 with
  | some reason =>
    left
    exact ⟨reason, by simp only [herror]⟩
  | none =>
    right
    exact ⟨(takeLines read (pending ++ chunk)).2, by simp only [herror]⟩

theorem foldl_feed_reporting (chunks : List (List Nat)) (pending : List Nat) :
    (∃ reason, chunks.foldl (Progress.feed read) (.reporting pending) = .failed reason) ∨
      ∃ rest, chunks.foldl (Progress.feed read) (.reporting pending) = .reporting rest := by
  induction chunks generalizing pending with
  | nil => exact .inr ⟨pending, rfl⟩
  | cons chunk chunks ih =>
    rw [List.foldl_cons]
    obtain ⟨reason, hfeed⟩ | ⟨rest, hfeed⟩ := feed_reporting pending chunk
    · rw [hfeed, foldl_feed_failed]
      exact .inl ⟨reason, rfl⟩
    · rw [hfeed]
      exact ih rest

/-- The follower goes on where the request has stopped. -/
theorem outcome_reporting (before : State) (pending : List Nat) (chunks : List (List Nat)) :
    (⟨pending, chunks, true⟩ : Stream).outcome read =
      (chunks.foldl (Progress.feed read) (.reporting pending)).settle before := by
  unfold Stream.outcome
  dsimp only
  obtain ⟨reason, hend⟩ | ⟨rest, hend⟩ := foldl_feed_reporting chunks pending
  · rw [hend]
    rfl
  · rw [hend]
    rfl

theorem settle_reached (before : State) (bytes : List Nat) : (reached read bytes).settle before =
    match (takeLines read bytes).1.findSome? (·.error) with
    | some reason => .failed reason
    | none => if (takeLines read bytes).1 = [] then before else .idle := by
  unfold reached firstError?
  dsimp only
  cases (takeLines read bytes).1.findSome? (·.error) with
  | some reason => rfl
  | none => cases (takeLines read bytes).1 <;> rfl

/-- The state after a pull that was requested and followed to its end, where no other pull was running. -/
def settled (read : List Nat → Option PullLine) (before : State) (chunks : List (List Nat)) : State :=
  (((⟨before, []⟩ : Download).receiveBy read chunks true).2.followBy read).state

/-- What the start of a stream leaves to be followed comes to what all of the stream comes to. -/
theorem outcome_start (before : State) (p : Progress) (chunks : List (List Nat)) :
    (match p.start read true chunks with
      | .ok .none => before
      | .ok (some s) => s.outcome read
      | .error (.backend reason) => .failed reason
      | .error _ => before) = (chunks.foldl (Progress.feed read) p).settle before := by
  induction chunks generalizing p with
  | nil => cases p <;> rfl
  | cons chunk chunks ih =>
    cases p with
    | silent pending => exact ih _
    | reporting pending => exact outcome_reporting before pending (chunk :: chunks)
    | failed reason =>
      rw [foldl_feed_failed]
      rfl

theorem settled_eq (before : State) (chunks : List (List Nat)) :
    settled read before chunks = (reached read chunks.flatten).settle before := by
  have hall : chunks.foldl (Progress.feed read) (.silent []) = reached read chunks.flatten :=
    foldl_feed chunks []
  rw [← hall, ← outcome_start, settled, Download.receiveBy]
  cases Progress.start read true (.silent []) chunks with
  | ok s => cases s <;> rfl
  | error e => cases e <;> rfl

/-- The outcome of a pull does not depend on how its stream is cut: it has failed with the error of the first
line that is read as one with an error; otherwise it is over if any line could be read, and nothing has
changed if none could. -/
theorem settled_of_lines (hblank : ∀ line, isBlankLine line = true → read line = none) (before : State)
    (chunks : List (List Nat)) :
    (settled read before chunks =
      let said := (terminated chunks.flatten).filterMap read
      match said.findSome? (·.error) with
      | some reason => .failed reason
      | none => if said = [] then before else .idle) ∧
    ∀ others : List (List Nat), others.flatten = chunks.flatten →
      settled read before others = settled read before chunks := by
  constructor
  · rw [settled_eq, settle_reached, fst_takeLines hblank]
  · intro others h
    rw [settled_eq, settled_eq, h]

/-! ### Lines of JSON -/

theorem decode_of_ascii {s : List Nat} (h : ∀ b ∈ s, b < 0x80) (i : Nat) :
    Text.decode.go s 0 i = .ok (s.map Char.ofNat) := by
  induction s generalizing i with
  | nil => rfl
  | cons b s ih =>
    rw [List.forall_mem_cons] at h
    have hfront : Text.front b s = .char (Char.ofNat b) 1 := if_pos h.1
    rw [Text.decode.go, hfront]
    exact congrArg (Except.map (Char.ofNat b :: ·)) (ih h.2 (i + 1))

/-- Of a blank line no more than blanks is passed over: a form feed is no space in JSON. -/
theorem skipSpace_of_blank {line : List Nat} (h : isBlankLine line = true) :
    Json.skipSpace (line.map Char.ofNat) = [] ∨
      ∃ rest, Json.skipSpace (line.map Char.ofNat) = '\x0c' :: rest := by
  induction line with
  | nil => exact .inl rfl
  | cons b line ih =>
    rw [isBlankLine, List.all_cons, Bool.and_eq_true] at h
    have hb : b = 0x09 ∨ b = 0x0A ∨ b = 0x0C ∨ b = 0x0D ∨ b = 0x20 := by simpa using h.1
    obtain rfl | rfl | rfl | rfl | rfl := hb
    · exact ih h.2
    · exact ih h.2
    · exact .inr ⟨_, rfl⟩
    · exact ih h.2
    · exact ih h.2

/-- A blank line is no JSON. -/
theorem ofBytes?_of_blank (line : List Nat) (h : isBlankLine line = true) : PullLine.ofBytes? line = none := by
  have hascii : ∀ b ∈ line, b < 0x80 := by
    intro b hb
    have hmem := List.all_eq_true.1 h b hb
    have hcases : b = 0x09 ∨ b = 0x0A ∨ b = 0x0C ∨ b = 0x0D ∨ b = 0x20 := by simpa using hmem
    omega
  have hdecode : Text.decode line = .ok (line.map Char.ofNat) := decode_of_ascii hascii 0
  have hread : ∃ e, PullLine.decoder.shape.read Json.depthLimit (line.map Char.ofNat) = .error e := by
    rw [PullLine.decoder, Shape.read, Shape.readRecord]
    obtain hskip | ⟨rest, hskip⟩ := skipSpace_of_blank h
    · rw [hskip]
      exact ⟨_, rfl⟩
    · rw [hskip]
      exact ⟨_, rfl⟩
  obtain ⟨e, hread⟩ := hread
  have hparse : PullLine.decoder.parse (line.map Char.ofNat) =
      .error (Json.locate (line.map Char.ofNat) e) := by
    rw [Decoder.parse, Shape.readDocument, Json.readDocument, hread]
    rfl
  rw [PullLine.ofBytes?, hdecode]
  simp only [hparse]
  rfl

/-- A line with an error that begins in the chunk of the first line and ends in the next one. -/
def straddling : List (List Nat) :=
  ["\x7b\"status\":\"pulling manifest\"\x7d\n\n\x7b\"err", "or\":\"gone\"\x7d\nno JSON\n",
    "\x7b\"error\":\"late\"\x7d\n"].map fun s => Text.utf8 s.toList

theorem settled_of_lines_straddling :
    (∀ line, isBlankLine line = true → PullLine.ofBytes? line = none) ∧
      settled PullLine.ofBytes? .idle straddling = .failed "gone" ∧
      settled PullLine.ofBytes? .idle [straddling.flatten] = .failed "gone" := by
  obtain ⟨hlines, hcuts⟩ := settled_of_lines ofBytes?_of_blank .idle straddling
  have hgone : settled PullLine.ofBytes? .idle straddling = .failed "gone" :=
    hlines.trans (by decide +kernel)
  exact ⟨ofBytes?_of_blank, hgone, (hcuts [straddling.flatten] (List.append_nil _)).trans hgone⟩

end Pull
end MockRedirect
