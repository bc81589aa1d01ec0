import MockRedirect.Proofs.Preserve
import MockRedirect.Proofs.RoundTrip
/-! Stores on files. The file holds what the store holds in memory, and opening it again gives that back
as long as no body is nested so deeply that the document around it becomes too deep to be read. -/
namespace MockRedirect

/-! ### Files -/

namespace Store

theorem toList_fileText (entries : Members) :
    (fileText entries).toList = (Json.obj entries).pretty 0 ++ ['\n'] := by
  rw [fileText, Json.prettyText, String.toList_append, String.toList_ofList]
  rfl

theorem exists_fileText_eq (entries : Members) :
    ∃ t, (Json.obj entries).pretty 0 ++ ['\n'] = '\x7b' :: t := by
  cases entries <;> exact ⟨_, rfl⟩

/-- The file of a store is read like any other document. -/
theorem readDocument_fileText (entries : Members) :
    decoder.shape.readDocument (fileText entries).toList =
      Json.readDocument Json.readTree ((Json.obj entries).pretty 0 ++ ['\n']) := by
  obtain ⟨t, ht⟩ := exists_fileText_eq entries
  -- an object is read as the tree it is; only another value would be refused at once
  have hread : Shape.read .members Json.depthLimit ('\x7b' :: t) =
      Json.readTree Json.depthLimit ('\x7b' :: t) := by
    rw [Shape.read]
    rfl
  rw [toList_fileText, ht]
  change Json.readDocument (Shape.read .members) _ = _
  rw [Json.readDocument, hread]
  rfl

/-- The file of a store is opened again, with the same entries in it, if they are not nested too deeply. -/
theorem openFile_fileText {entries : Members} (h : (Json.obj entries).Tidy Json.Lasting) :
    ((Json.obj entries).depth ≤ Json.depthLimit → openFile (some (fileText entries)) =
        .ok ⟨entries, .file (some (fileText entries)), .empty⟩) ∧
      (¬(Json.obj entries).depth ≤ Json.depthLimit →
        ∃ p, openFile (some (fileText entries)) = .error ⟨.tooDeep, some p⟩) := by
  have hblank : ¬Text.isBlankText (fileText entries) = true := by
    obtain ⟨t, ht⟩ := exists_fileText_eq entries
    rw [Text.isBlankText, toList_fileText, ht]
    exact Bool.false_ne_true
  obtain ⟨hok, herror⟩ := Json.readDocument_pretty h
  constructor
  · intro hle
    rw [openFile, parse, if_neg hblank, Decoder.parse, readDocument_fileText, hok hle]
    rfl
  · intro hlt
    obtain ⟨p, hp⟩ := herror hlt
    rw [openFile, parse, if_neg hblank, Decoder.parse, readDocument_fileText, hp]
    exact ⟨p, rfl⟩

end Store

/-! ### Stores on files -/

namespace Mock

variable {leaf : Json → Prop} {m : Mock} {d : Nat}

theorem tidy_toJson (h : m.Normal Json.Lasting) : m.toJson.Tidy Json.Lasting := by
  have hid : Json.Lasting (.int m.id.value) := by
    have hpow : MockId.highest < Nat.pow 2 64 := by decide
    obtain ⟨hlow, hhigh⟩ := h.id
    exact Json.lasting_int (by omega) (by omega)
  have htext (s : String) : (Json.str s).Tidy Json.Lasting := .scalar trivial (Json.lasting_str s)
  have hkeys : ["id", "originalUrl", "urlTemplate", "verb", "body", "enabled"].Nodup := by decide
  refine Json.tidy_obj.2 ⟨hkeys, ?_⟩
  simp only [List.forall_mem_cons]
  exact ⟨.scalar trivial hid, htext _, htext _, htext _, h.body,
    .scalar trivial (Json.lasting_bool _), by simp⟩

theorem depth_toJson_le : m.toJson.depth ≤ d + 1 ↔ m.body.depth ≤ d := by
  rw [toJson, Json.depth_obj_le]
  simp [MockId.toJson, Json.depth]

end Mock

namespace Records

/-- An entry as it is written: the switch, or a list of mocks that are read back. -/
def IsEntry (m : String × Json) : Prop :=
  (∃ on, m = (globalKey, .bool on)) ∨
    ∃ ms : List Mock, m = (key, .arr (ms.map Mock.toJson)) ∧ ∀ x ∈ ms, x.Normal Json.Lasting

theorem tidy_of_isEntry {m : String × Json} (h : IsEntry m) : m.2.Tidy Json.Lasting := by
  obtain ⟨on, rfl⟩ | ⟨ms, rfl, hms⟩ := h
  · exact .scalar trivial (Json.lasting_bool on)
  · refine Json.tidy_arr.2 fun v hv => ?_
    obtain ⟨x, hx, rfl⟩ := List.mem_map.1 hv
    exact Mock.tidy_toJson (hms x hx)

theorem map_mock_mocks {rs : Records} (h : ∀ r ∈ rs, ∃ m, r = .mock m) : rs.mocks.map .mock = rs := by
  induction rs with
  | nil => rfl
  | cons r rs ih =>
    rw [List.forall_mem_cons] at h
    obtain ⟨⟨m, rfl⟩, h⟩ := h
    exact congrArg (List.cons _) (ih h)

theorem mocks_map_mock (ms : List Mock) : mocks (ms.map .mock) = ms := by
  rw [mocks, List.filterMap_map]
  exact List.filterMap_some

/-- Mocks in normal form are found where they have been written. -/
theorem ofEntries_of_get? {entries : Members} {ms : List Mock}
    (h : Members.get? key entries = some (.arr (ms.map Mock.toJson)))
    (hms : ∀ x ∈ ms, x.Normal Json.Lasting) : ofEntries entries = ms.map .mock := by
  rw [ofEntries, h]
  dsimp only
  rw [List.map_map]
  exact List.map_congr_left fun x hx => Record.settled_mock (hms x hx)

end Records

namespace Store

/-- A store on a file that holds what is in memory, which is nothing that was not written by a call. -/
structure Filed (s : Store) : Prop where
  backing : ∃ text, s.backing = .file text ∧
    ((text = none ∧ s.entries = []) ∨ text = some (fileText s.entries))
  nodup : (Members.keys s.entries).Nodup
  entries : ∀ m ∈ s.entries, Records.IsEntry m

variable {s : Store} {new : Members}

theorem filed_of_openFile (h : openFile none = .ok s) : s.Filed := by
  cases h
  exact ⟨⟨none, rfl, .inl ⟨rfl, rfl⟩⟩, List.nodup_nil, by simp⟩

theorem Filed.set (h : s.Filed) (hnew : ∀ m ∈ new, Records.IsEntry m) : (s.set new).Filed := by
  by_cases hnil : new = []
  · rwa [hnil, set_nil]
  · obtain ⟨text, htext, -⟩ := h.backing
    refine ⟨⟨some (fileText (s.set new).entries), ?_, .inr rfl⟩, ?_, fun m hm => ?_⟩
    · rw [Store.set, if_neg hnil, announce, write, htext]
    · rw [entries_set]
      exact Members.nodup_keys_putAll h.nodup new
    · rw [entries_set] at hm
      exact (Members.mem_putAll hm).elim (h.entries m) (hnew m)

theorem Filed.tidy (h : s.Filed) : (Json.obj s.entries).Tidy Json.Lasting :=
  Json.tidy_obj.2 ⟨h.nodup, fun m hm => Records.tidy_of_isEntry (h.entries m hm)⟩

/-- A file store holds no list, or one of nothing but mocks in normal form. -/
theorem Filed.list_cases (h : s.Filed) : Members.get? Records.key s.entries = none ∨
    ∃ ms : List Mock, Members.get? Records.key s.entries = some (.arr (ms.map Mock.toJson)) ∧
      ∀ x ∈ ms, x.Normal Json.Lasting := by
  cases hget : Members.get? Records.key s.entries with
  | none => exact .inl rfl
  | some v =>
    obtain ⟨on, heq⟩ | ⟨ms, heq, hms⟩ := h.entries _ (Members.mem_of_get? hget)
    · have hkeys : Records.key ≠ globalKey := by decide
      exact absurd (congrArg Prod.fst heq) hkeys
    · exact .inr ⟨ms, congrArg some (congrArg Prod.snd heq), hms⟩

theorem Filed.exists_mocks (h : s.Filed) : ∃ ms : List Mock,
    Records.ofEntries s.entries = ms.map .mock ∧ ∀ x ∈ ms, x.Normal Json.Lasting := by
  obtain hget | ⟨ms, hget, hms⟩ := h.list_cases
  · exact ⟨[], by rw [Records.ofEntries, hget]; rfl, by simp⟩
  · exact ⟨ms, Records.ofEntries_of_get? hget hms, hms⟩

/-- Of all that a file store holds only the bodies of mocks can be nested too deeply. The list, the
mocks in it and the store itself leave them three levels less. -/
theorem Filed.depth_le_iff (h : s.Filed) {d : Nat} : (Json.obj s.entries).depth ≤ d + 3 ↔
    ∀ m ∈ (Records.ofEntries s.entries).mocks, m.body.depth ≤ d := by
  have harr (ms : List Mock) : (Json.arr (ms.map Mock.toJson)).depth ≤ d + 2 ↔
      ∀ m ∈ ms, m.body.depth ≤ d := by
    rw [Json.depth_arr_le, List.forall_mem_map]
    exact forall₂_congr fun m _ => Mock.depth_toJson_le
  rw [Json.depth_obj_le]
  constructor
  · intro hle
    obtain hget | ⟨ms, hget, hms⟩ := h.list_cases
    · simp [Records.ofEntries, hget, Records.mocks]
    · rw [Records.ofEntries_of_get? hget hms, Records.mocks_map_mock, ← harr]
      exact hle _ (Members.mem_of_get? hget)
  · intro hle m hm
    obtain ⟨on, rfl⟩ | ⟨ms, rfl, hms⟩ := h.entries m hm
    · exact Nat.zero_le _
    · have hget := Members.get?_of_mem h.nodup hm
      rw [Records.ofEntries_of_get? hget hms, Records.mocks_map_mock] at hle
      exact (harr ms).2 hle

/-- The file of a store is opened again with all that the store holds, if no body is nested so deeply
that the three levels around it go beyond the limit; it is refused otherwise. -/
theorem Filed.reopens (h : s.Filed) : ∃ text, s.backing = .file text ∧
    ((∀ m ∈ (Records.ofEntries s.entries).mocks, m.body.depth + 3 ≤ Json.depthLimit) →
      ∃ u, openFile text = .ok u ∧ u.entries = s.entries) ∧
    (¬(∀ m ∈ (Records.ofEntries s.entries).mocks, m.body.depth + 3 ≤ Json.depthLimit) →
      ∃ p, openFile text = .error ⟨.tooDeep, some p⟩) := by
  obtain ⟨text, hbacking, ⟨rfl, hempty⟩ | rfl⟩ := h.backing
  · refine ⟨none, hbacking, fun _ => ⟨_, rfl, hempty.symm⟩, fun hdeep => absurd ?_ hdeep⟩
    simp [hempty, Records.ofEntries, Records.mocks]
  · have hlimit : Json.depthLimit = 124 + 3 := rfl
    obtain ⟨hok, herror⟩ := openFile_fileText h.tidy
    rw [hlimit, h.depth_le_iff] at hok herror
    simp only [hlimit, Nat.add_le_add_iff_right]
    exact ⟨_, hbacking, fun hle => ⟨_, hok hle, rfl⟩, herror⟩

end Store

namespace Call

variable {c : Call} {a : c.Answer} {rs : Records} {s : Store} {new : Members}

theorem exists_mock_of_changes (h : c.Changes (.ofEntries s.entries) a rs) (hs : s.Filed) :
    ∀ r ∈ rs, ∃ m, r = .mock m := by
  intro r hr
  obtain hold | ⟨m, rfl, -⟩ := mem_of_changes h hr
  · obtain ⟨ms, hms, -⟩ := hs.exists_mocks
    rw [hms] at hold
    obtain ⟨m, -, rfl⟩ := List.mem_map.1 hold
    exact ⟨m, rfl⟩
  · exact ⟨m, rfl⟩

/-- A call writes nothing else than the switch, or a list of mocks in normal form. -/
theorem isEntry_of_writes (h : c.Writes s.entries a new) (hin : c.IdsInRange)
    (ht : c.Tidy Json.Lasting) (hs : s.Filed) : ∀ m ∈ new, Records.IsEntry m := by
  have hzero : Json.Lasting (.int 0) := Json.lasting_int (by decide) (by decide)
  cases h with
  | read hc a => simp
  | seed h =>
    intro m hm
    obtain ⟨rfl, -⟩ | ⟨rfl, -⟩ := Mocks.mem_seed h hm
    · exact .inr ⟨[], rfl, by simp⟩
    · exact .inl ⟨true, rfl⟩
  | setGlobal on =>
    intro m hm
    exact .inl ⟨on, List.mem_singleton.1 hm⟩
  | @records _ _ rs h =>
    have hold : ∀ m, .mock m ∈ Records.ofEntries s.entries → m.Normal Json.Lasting := by
      obtain ⟨ms, hms, hnormal⟩ := hs.exists_mocks
      rw [hms]
      intro m hm
      obtain ⟨x, hx, heq⟩ := List.mem_map.1 hm
      cases heq
      exact hnormal m hx
    have hnew := normal_of_changes h hin ht hzero hold
    have hmocks := Records.map_mock_mocks (exists_mock_of_changes h hs)
    intro m hm
    obtain rfl := List.mem_singleton.1 hm
    refine .inr ⟨rs.mocks, ?_, fun x hx => hnew x ?_⟩
    · rw [← hmocks, List.map_map, Records.mocks_map_mock]
      rfl
    · rw [← hmocks]
      exact List.mem_map_of_mem hx

theorem filed_after (writable : Bool) (hin : c.IdsInRange) (ht : c.Tidy Json.Lasting) (hs : s.Filed) :
    (s.after writable c).Filed := by
  rw [Store.after]
  obtain ⟨e, h⟩ | ⟨a, new, hw, h⟩ := attempt_cases writable c s
  · rwa [h]
  · rw [h]
    exact hs.set (isEntry_of_writes hw hin ht hs)

end Call

/-! ### Calls that bring in what is read back -/

theorem Json.lasting_coerce {raw : String} (h : readInt64? (Text.trim raw.toList) = none →
    ∀ x ∈ readDecimal? (Text.trim raw.toList), x.ReadsBack) (path : FieldPath) (current : Json) :
    (coerce path raw current).Lasting := by
  unfold coerce
  split
  · exact lasting_int (by decide) (by decide)
  · dsimp only
    split
    · exact lasting_bool _
    · split
      · next n hn =>
        obtain ⟨-, hrange⟩ := Option.filter_eq_some_iff.1 hn
        simp only [Bool.and_eq_true, decide_eq_true_eq] at hrange
        have hpow : Nat.pow 2 63 < Nat.pow 2 64 := by decide
        exact lasting_int (by omega) (by omega)
      · next hnone =>
        split
        · next x hx => exact lasting_float (h hnone x hx)
        · exact lasting_str raw

theorem Template.tidy_of_parse {text : List Char} {tree : Json} (h : parse text = .ok tree) :
    tree.Tidy Json.Short := by
  rw [parse] at h
  split at h
  · contradiction
  · split at h
    · next v hv =>
      cases h
      exact (Json.tidy_of_parse hv).prune _
    · contradiction

namespace Draft

variable {d : Draft}

/-- A draft made from a template, all of whose numbers are read back. Integers of 64 bits always are. -/
def IsComposed (d : Draft) : Prop :=
  ∃ (url template : String) (fallback : Verb) (tree : Json), fallback.IsNormal ∧
    compose url fallback template = .ok d ∧ Template.parse template.toList = .ok tree ∧
    tree.Every (fun _ => True) fun v => ∀ x, v = .float x → x.ReadsBack

theorem exists_tree_of_compose {url template : String} {fallback : Verb}
    (h : compose url fallback template = .ok d) : ∃ tree e,
      Template.parse template.toList = .ok tree ∧
      Endpoint.compile (Text.trimmed url) fallback = .ok e ∧
      d = ⟨none, Text.trimmed url, e.template, e.verb, tree.zeroStatus, tree.zeroStatus⟩ := by
  rw [compose] at h
  dsimp only at h
  split at h
  · cases h
  · split at h
    · cases h
    · obtain ⟨_, -, h⟩ := bind_eq_ok.1 h
      obtain ⟨tree, htree, h⟩ := bind_eq_ok.1 h
      obtain ⟨e, he, h⟩ := bind_eq_ok.1 h
      cases h
      exact ⟨tree, e, htree, he, rfl⟩

theorem IsComposed.id_eq (h : d.IsComposed) : d.id = none := by
  obtain ⟨url, template, fallback, tree, -, hd, -⟩ := h
  obtain ⟨_, _, -, -, rfl⟩ := exists_tree_of_compose hd
  rfl

theorem IsComposed.verb (h : d.IsComposed) : d.verb.IsNormal := by
  obtain ⟨url, template, fallback, tree, hverb, hd, -⟩ := h
  obtain ⟨_, _, -, he, rfl⟩ := exists_tree_of_compose hd
  exact Endpoint.isNormal_of_compile hverb he

theorem IsComposed.body (h : d.IsComposed) : d.body.Tidy Json.Lasting := by
  obtain ⟨url, template, fallback, tree, -, hd, hparse, hfloat⟩ := h
  obtain ⟨tree', _, hparse', -, rfl⟩ := exists_tree_of_compose hd
  obtain rfl : tree' = tree := Except.ok.inj (hparse'.symm.trans hparse)
  have htree : tree'.Tidy Json.Lasting := ((Template.tidy_of_parse hparse).and hfloat).imp
    (fun _ h => h.1) fun _ h => ⟨h.1, h.2⟩
  exact htree.zeroStatus (Json.lasting_int (by decide) (by decide))

end Draft

namespace Call

/-- What a call brings in is made from such templates, and ids and verbs are as they are made from any
text. Decimals typed into a body are read back. -/
def Lasting : Call → Prop
  | save m => m.Normal Json.Lasting
  | saveDraft d drawn => d.IsComposed ∧ drawn.InRange
  | addAll ds draw => (∀ d ∈ ds, d.IsComposed) ∧ ∀ i, (draw i).InRange
  | updateVerb _ verb => verb.IsNormal
  | updateField _ _ raw => readInt64? (Text.trim raw.toList) = none →
    ∀ x ∈ readDecimal? (Text.trim raw.toList), x.ReadsBack
  | _ => True

variable {c : Call}

theorem Lasting.idsInRange (h : c.Lasting) : c.IdsInRange := by
  cases c with
  | save m => exact h.id
  | saveDraft d drawn => exact ⟨by simp [h.1.id_eq], h.2⟩
  | addAll ds draw => exact h.2
  | _ => trivial

theorem Lasting.tidy (h : c.Lasting) : c.Tidy Json.Lasting := by
  cases c with
  | save m => exact ⟨h.verb, h.body⟩
  | saveDraft d drawn => exact ⟨h.1.verb, h.1.body⟩
  | addAll ds draw => exact fun d hd => ⟨(h.1 d hd).verb, (h.1 d hd).body⟩
  | updateVerb id verb => exact h
  | updateField id path raw => exact Json.lasting_coerce h
  | _ => trivial

end Call

namespace Store

/-- However a store that was opened without a file has been used: as long as what was brought in is read
back, its file is opened again with all that the store holds, unless some body is nested more deeply
than the three levels around it allow. Then the file cannot be opened. -/
theorem reopen_of_reaches {s t : Store} (hs : openFile none = .ok s)
    (h : s.Reaches (fun c _ => c.Lasting) t) : ∃ text, t.backing = .file text ∧
    ((∀ m ∈ (Records.ofEntries t.entries).mocks, m.body.depth + 3 ≤ Json.depthLimit) →
      ∃ u, openFile text = .ok u ∧ u.entries = t.entries) ∧
    (¬(∀ m ∈ (Records.ofEntries t.entries).mocks, m.body.depth + 3 ≤ Json.depthLimit) →
      ∃ p, openFile text = .error ⟨.tooDeep, some p⟩) :=
  Filed.reopens <| h.invariant (filed_of_openFile hs) fun _ writable _ ht hc =>
    Call.filed_after writable hc.idsInRange hc.tidy ht

def listDraft : Draft := ⟨none, "/a", "/a?MT=GET", .get, .arr [.int 1], .arr [.int 1]⟩

theorem isComposed_listDraft : listDraft.IsComposed := by
  refine ⟨"/a", "[1]", .get, .arr [.int 1], by decide, rfl, rfl, .arr fun x hx => ?_⟩
  obtain rfl := List.mem_singleton.1 hx
  exact .scalar trivial fun _ => by simp

theorem reopen_of_reaches_list : Draft.compose "/a" .get "[1]" = .ok listDraft ∧
    ∃ s t text u, openFile none = .ok s ∧ s.Reaches (fun c _ => c.Lasting) t ∧
      t.backing = .file text ∧ openFile text = .ok u ∧ u.entries = t.entries ∧
      (Records.ofEntries t.entries).mocks.map (·.body) = [.arr [.int 1]] := by
  let s : Store := ⟨[], .file none, .empty⟩
  have hreach : s.Reaches (fun c _ => c.Lasting)
      ((s.after true .seed).after true (.saveDraft listDraft ⟨1⟩)) :=
    .step (.step .refl true trivial) true ⟨isComposed_listDraft, by decide⟩
  obtain ⟨text, htext, hok, -⟩ := reopen_of_reaches rfl hreach
  obtain ⟨u, hu, hentries⟩ := hok (by decide +kernel)
  exact ⟨rfl, s, _, text, u, rfl, hreach, htext, hu, hentries, rfl⟩

/-- An empty list inside so many others. -/
def nested : Nat → Json
  | 0 => .arr []
  | n + 1 => .arr [nested n]

theorem depth_nested (n : Nat) : (nested n).depth = n + 1 := by
  induction n with
  | zero => rfl
  | succ n ih => simp [nested, Json.depth, Json.depthItems, ih]

theorem tidy_nested (leaf : Json → Prop) (n : Nat) : (nested n).Tidy leaf := by
  induction n with
  | zero => exact .arr (by simp)
  | succ n ih => exact .arr (List.forall_mem_singleton.2 ih)

def nestedText : String := String.ofList (List.replicate 125 '[' ++ List.replicate 125 ']')

def nestedDraft : Draft := ⟨none, "/a", "/a?MT=GET", .get, nested 124, nested 124⟩

set_option maxRecDepth 2000 in
theorem compose_nestedText : Draft.compose "/a" .get nestedText = .ok nestedDraft := by
  have htext : nestedText.toList = List.replicate 125 '[' ++ List.replicate 125 ']' := String.toList_ofList
  have hparse : Template.parse nestedText.toList = .ok (nested 124) := by
    rw [htext]
    rfl
  have hblank : Text.isBlankText nestedText = false := by
    rw [Text.isBlankText, htext]
    rfl
  rw [Draft.compose, hblank, hparse]
  rfl

/-- A template of 125 lists in one another is accepted, and the mock is saved. With three more levels
around it, it is not read again. -/
theorem not_reopens_nested : ∃ s t m text p, openFile none = .ok s ∧
    Draft.compose "/a" .get nestedText = .ok nestedDraft ∧
    s.attempt true (Mocks.saveDraft nestedDraft ⟨1⟩) = (.ok m, t) ∧
    t.backing = .file text ∧ openFile text = .error ⟨.tooDeep, some p⟩ := by
  -- the file is never computed: that it is refused follows from how deeply the stored body is nested
  let s : Store := ⟨[], .file none, .empty⟩
  let c : Call := .saveDraft nestedDraft ⟨1⟩
  have hin : c.IdsInRange := ⟨by simp [nestedDraft], by decide⟩
  have hfiled : (s.after true c).Filed :=
    Call.filed_after true hin ⟨by decide, tidy_nested _ _⟩ (filed_of_openFile rfl)
  have hrecords : Records.ofEntries (s.after true c).entries = [.mock (nestedDraft.toMock ⟨1⟩ [])] :=
    Call.ofEntries_set_of_changes (.saveDraft nestedDraft ⟨1⟩) hin ⟨by decide, tidy_nested _ _⟩
  obtain ⟨text, htext, -, hdeep⟩ := hfiled.reopens
  obtain ⟨p, hp⟩ := hdeep fun hle => by
    have hdepth : (nested 124).depth + 3 ≤ Json.depthLimit := by
      refine hle (nestedDraft.toMock ⟨1⟩ []) ?_
      rw [hrecords]
      exact List.mem_singleton_self _
    rw [depth_nested] at hdepth
    exact absurd hdepth (by decide)
  exact ⟨_, _, _, text, p, rfl, compose_nestedText, rfl, htext, hp⟩

end Store
end MockRedirect
