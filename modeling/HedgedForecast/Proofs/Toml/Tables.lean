import HedgedForecast.Toml.Table
import Mathlib.Data.List.Nodup

/-! # Growing tables

The keys and headers of a file add entries to tables at paths. Changes at one path one after another are one change,
and a change in a table that is not there yet is a change of the table around it, which gets one entry more.
-/

namespace HedgedForecast.Toml

variable {entries more : List (String × Node)} {key : String} {node old : Node}

theorem lookup_setEntry_self (key : String) (node : Node) (entries : List (String × Node)) :
    (setEntry key node entries).lookup key = some node := by
  induction entries with
  | nil => simp [setEntry]
  | cons entry rest ih =>
    rw [setEntry]
    by_cases same : entry.1 == key
    · rw [if_pos same, List.lookup_cons_self]
    · have other : (key == entry.1) = false := by
        rw [BEq.comm]
        exact Bool.eq_false_iff.mpr same
      rw [if_neg same, List.lookup_cons, other]
      exact ih

theorem setEntry_setEntry (key : String) (old node : Node) (entries : List (String × Node)) :
    setEntry key node (setEntry key old entries) = setEntry key node entries := by
  induction entries with
  | nil => simp [setEntry]
  | cons entry rest ih =>
    by_cases same : entry.1 == key
    · simp [setEntry, same]
    · simp [setEntry, same, ih]

theorem setEntry_of_not_mem (absent : key ∉ entries.map Prod.fst) :
    setEntry key node entries = entries ++ [(key, node)] := by
  induction entries with
  | nil => rfl
  | cons entry rest ih =>
    simp only [List.map_cons, List.mem_cons, not_or] at absent
    have other : ¬(entry.1 == key) = true := by simpa using fun same : entry.1 = key => absent.1 same.symm
    rw [setEntry, if_neg other, ih absent.2, List.cons_append]

theorem lookup_eq_none_iff : entries.lookup key = none ↔ key ∉ entries.map Prod.fst := by
  rw [List.lookup_eq_none_iff, List.mem_map, not_exists]
  constructor
  · rintro other entry ⟨member, rfl⟩
    exact absurd (other entry member) (by simp)
  · intro absent entry member
    have differs : entry.1 ≠ key := fun same => absent entry ⟨member, same⟩
    simpa using differs.symm

namespace Draft

variable {change next : Draft → Option Draft} {draft changed : Draft} {path : List String} {dotted : Bool}

/-- A change that leaves open how a table came to be. -/
def KeepsOrigin (change : Draft → Option Draft) : Prop :=
  ∀ draft changed, change draft = some changed → changed.origin = draft.origin

theorem KeepsOrigin.modify? (keeps : KeepsOrigin change) (path : List String) :
    KeepsOrigin (Draft.modify? dotted change path) := by
  intro draft changed success
  cases path with
  | nil => exact keeps draft changed success
  | cons key path =>
    simp only [Draft.modify?, Option.bind_eq_bind] at success
    split at success
    · obtain ⟨inner, _, same⟩ := Option.bind_eq_some_iff.mp success
      exact (congrArg origin (Option.some.inj same)).symm
    · contradiction
    · split at success
      · contradiction
      · obtain ⟨inner, _, same⟩ := Option.bind_eq_some_iff.mp success
        exact (congrArg origin (Option.some.inj same)).symm
    · obtain ⟨last, _, success⟩ := Option.bind_eq_some_iff.mp success
      obtain ⟨inner, _, same⟩ := Option.bind_eq_some_iff.mp success
      exact (congrArg origin (Option.some.inj same)).symm

/-- A change at a long path is a change at its front. -/
theorem modify?_append (change : Draft → Option Draft) (back : List String) : ∀ (front : List String) (draft : Draft),
    draft.modify? dotted change (front ++ back) = draft.modify? dotted (Draft.modify? dotted change back) front := by
  intro front
  induction front with
  | nil => exact fun draft => rfl
  | cons key front ih =>
    intro draft
    simp only [List.cons_append, Draft.modify?, ih]

/-- A change that does whatever another does succeeds wherever that one does. -/
theorem modify?_mono (stronger : ∀ draft changed, change draft = some changed → next draft = some changed) :
    ∀ (path : List String) (draft changed : Draft), draft.modify? dotted change path = some changed →
      draft.modify? dotted next path = some changed := by
  intro path
  induction path with
  | nil => exact stronger
  | cons key path ih =>
    intro draft changed success
    simp only [Draft.modify?, Option.bind_eq_bind] at success ⊢
    split at success
    · obtain ⟨inner, done, same⟩ := Option.bind_eq_some_iff.mp success
      exact Option.bind_eq_some_iff.mpr ⟨inner, ih _ _ done, same⟩
    · contradiction
    · split at success
      · contradiction
      · next open' =>
        obtain ⟨inner, done, same⟩ := Option.bind_eq_some_iff.mp success
        rw [if_neg open']
        exact Option.bind_eq_some_iff.mpr ⟨inner, ih _ _ done, same⟩
    · obtain ⟨last, lasts, success⟩ := Option.bind_eq_some_iff.mp success
      obtain ⟨inner, done, same⟩ := Option.bind_eq_some_iff.mp success
      exact Option.bind_eq_some_iff.mpr ⟨last, lasts, Option.bind_eq_some_iff.mpr ⟨inner, ih _ _ done, same⟩⟩

/-- Two changes at one path are one change. -/
theorem modify?_bind (keeps : KeepsOrigin change) : ∀ (path : List String) (draft : Draft),
    (draft.modify? false change path).bind (Draft.modify? false next path) =
      draft.modify? false (fun inner => (change inner).bind next) path := by
  intro path
  induction path with
  | nil => exact fun draft => rfl
  | cons key path ih =>
    intro draft
    simp only [Draft.modify?, Option.bind_eq_bind, Bool.false_and, Bool.false_eq_true, if_false]
    split
    · rw [← ih]
      cases Draft.modify? false change path ⟨.implied, []⟩ with
      | none => rfl
      | some inner => simp [lookup_setEntry_self, setEntry_setEntry]
    · rfl
    · next origin entries _ =>
      rw [← ih]
      cases Draft.modify? false change path ⟨origin, entries⟩ with
      | none => rfl
      | some inner => simp [lookup_setEntry_self, setEntry_setEntry]
    · next elements _ =>
      cases elements.getLast? with
      | none => rfl
      | some last =>
        simp only [Option.bind_some]
        rw [← ih]
        cases done : Draft.modify? false change path ⟨.header, last⟩ with
        | none => rfl
        | some inner =>
          have header : inner.origin = .header := keeps.modify? path _ _ done
          have same : inner = ⟨.header, inner.entries⟩ := by rw [← header]
          simp [lookup_setEntry_self, setEntry_setEntry, ← same]

/-- Adds entries to the end of a table whose names stay distinct. -/
def extend? (more : List (String × Node)) (draft : Draft) : Option Draft :=
  if ((draft.entries ++ more).map Prod.fst).Nodup then some ⟨draft.origin, draft.entries ++ more⟩ else none

theorem extend?_eq_some_iff : draft.extend? more = some changed ↔
    ((draft.entries ++ more).map Prod.fst).Nodup ∧ ⟨draft.origin, draft.entries ++ more⟩ = changed := by
  unfold extend?
  split_ifs with distinct
  · rw [Option.some.injEq, and_iff_right distinct]
  · exact iff_of_false (by simp) fun both => distinct both.1

theorem not_mem_of_extend? (success : draft.extend? [(key, node)] = some changed) :
    key ∉ draft.entries.map Prod.fst := by
  obtain ⟨distinct, _⟩ := extend?_eq_some_iff.mp success
  rw [List.map_append] at distinct
  exact fun member => (List.nodup_append.mp distinct).2.2 key member key (List.mem_singleton_self key) rfl

theorem keepsOrigin_extend? (more : List (String × Node)) : KeepsOrigin (extend? more) := by
  intro draft changed success
  obtain ⟨_, rfl⟩ := extend?_eq_some_iff.mp success
  rfl

/-- What follows from one change is what follows from its two halves. -/
theorem exists_modify?_of_bind (keeps : KeepsOrigin change)
    (success : draft.modify? false (fun inner => (change inner).bind next) path = some changed) :
    ∃ between, draft.modify? false change path = some between ∧ between.modify? false next path = some changed := by
  rw [← modify?_bind keeps] at success
  exact Option.bind_eq_some_iff.mp success

/-- Entries may be added in two halves. -/
theorem exists_modify?_extend? {front back : List (String × Node)}
    (success : draft.modify? false (extend? (front ++ back)) path = some changed) :
    ∃ between, draft.modify? false (extend? front) path = some between ∧
      between.modify? false (extend? back) path = some changed := by
  refine exists_modify?_of_bind (keepsOrigin_extend? front) ?_
  refine modify?_mono (fun inner grown success => ?_) path draft changed success
  obtain ⟨distinct, rfl⟩ := extend?_eq_some_iff.mp success
  rw [← List.append_assoc] at distinct
  have half : ((inner.entries ++ front).map Prod.fst).Nodup := by
    rw [List.map_append] at distinct
    exact (List.nodup_append.mp distinct).1
  rw [Option.bind_eq_some_iff]
  exact ⟨_, extend?_eq_some_iff.mpr ⟨half, rfl⟩, extend?_eq_some_iff.mpr ⟨distinct, by simp⟩⟩

/-- There is a table at the path: it can be extended by nothing. -/
def Stands (path : List String) (draft : Draft) : Prop :=
  draft.modify? false (extend? []) path = some draft

/-- Where a table was extended, there is one. -/
theorem stands_of_extend? (success : draft.modify? false (extend? more) path = some changed) : changed.Stands path := by
  rw [← List.append_nil more] at success
  obtain ⟨between, first, second⟩ := exists_modify?_extend? success
  rw [List.append_nil, first] at success
  obtain rfl := Option.some.inj success
  exact second

/-- A key adds an entry. -/
theorem insert?_of_extend? {data : Data}
    (success : draft.modify? false (extend? [(key, .value data)]) path = some changed) :
    draft.modify? false (·.insert? [] key data) path = some changed := by
  refine modify?_mono (fun inner grown success => ?_) path draft changed success
  have absent := not_mem_of_extend? success
  obtain ⟨distinct, rfl⟩ := extend?_eq_some_iff.mp success
  simp [insert?, Draft.modify?, lookup_eq_none_iff.mpr absent, setEntry_of_not_mem absent]

/-- A header adds an empty table. -/
theorem openTable?_of_extend?
    (success : draft.modify? false (extend? [(key, .table .header [])]) path = some changed) :
    draft.openTable? path key = some changed := by
  refine modify?_mono (fun inner grown success => ?_) path draft changed success
  have absent := not_mem_of_extend? success
  obtain ⟨distinct, rfl⟩ := extend?_eq_some_iff.mp success
  simp [lookup_eq_none_iff.mpr absent, setEntry_of_not_mem absent]

/-- A table with all its entries is the table with some of them, to which the others are added. -/
theorem exists_modify?_table {origin : Origin} {inner : List (String × Node)}
    (distinct : ((inner ++ more).map Prod.fst).Nodup)
    (success : draft.modify? false (extend? [(key, .table origin (inner ++ more))]) path = some changed) :
    ∃ between, draft.modify? false (extend? [(key, .table origin inner)]) path = some between ∧
      between.modify? false (extend? more) (path ++ [key]) = some changed := by
  simp only [modify?_append]
  refine exists_modify?_of_bind (keepsOrigin_extend? _) ?_
  refine modify?_mono (fun parent grown success => ?_) path draft changed success
  have absent := not_mem_of_extend? success
  obtain ⟨names, rfl⟩ := extend?_eq_some_iff.mp success
  have names' : ((parent.entries ++ [(key, Node.table origin inner)]).map Prod.fst).Nodup := by simpa using names
  rw [Option.bind_eq_some_iff]
  refine ⟨_, extend?_eq_some_iff.mpr ⟨names', rfl⟩, ?_⟩
  have grown : extend? more ⟨origin, inner⟩ = some ⟨origin, inner ++ more⟩ := extend?_eq_some_iff.mpr ⟨distinct, rfl⟩
  rw [← setEntry_of_not_mem absent, ← setEntry_of_not_mem absent]
  simp [Draft.modify?, lookup_setEntry_self, setEntry_setEntry, grown]

/-- Where a table was added, there is one. -/
theorem stands_table {origin : Origin} (distinct : (more.map Prod.fst).Nodup)
    (success : draft.modify? false (extend? [(key, .table origin more)]) path = some changed) :
    changed.Stands (path ++ [key]) := by
  rw [← List.append_nil more] at success distinct
  obtain ⟨between, first, second⟩ := exists_modify?_table distinct success
  rw [List.append_nil, first] at success
  obtain rfl := Option.some.inj success
  exact second

/-- A table without header comes from the first of its entries. -/
theorem modify?_implied (distinct : (more.map Prod.fst).Nodup)
    (success : draft.modify? false (extend? [(key, .table .implied more)]) path = some changed) :
    draft.modify? false (extend? more) (path ++ [key]) = some changed := by
  rw [modify?_append]
  refine modify?_mono (fun parent grown success => ?_) path draft changed success
  have absent := not_mem_of_extend? success
  obtain ⟨names, rfl⟩ := extend?_eq_some_iff.mp success
  have grown : extend? more ⟨.implied, []⟩ = some ⟨.implied, more⟩ := extend?_eq_some_iff.mpr ⟨distinct, rfl⟩
  simp [Draft.modify?, lookup_eq_none_iff.mpr absent, grown, setEntry_of_not_mem absent]

end Draft

end HedgedForecast.Toml
