import Mathlib.Data.List.Nodup
import Mathlib.Data.List.Basic

/-! # Tables with a primary key

A table is a list of rows together with a proof that no two of them have the same key, so a table
that violates its primary key cannot be built. Rows are read by key (`find?`); updates map every row
and must keep its key, an insert of a key that is present changes nothing, and each operation is
characterized by what `find?` returns afterwards.
-/

structure Table {ρ κ : Type} (key : ρ → κ) where
  rows : List ρ
  nodup : (rows.map key).Nodup

namespace Table

variable {ρ κ : Type} {key : ρ → κ} [DecidableEq κ]

def empty : Table key := ⟨[], List.nodup_nil⟩

def find? (table : Table key) (k : κ) : Option ρ := table.rows.find? fun row => key row = k

/-- Map every row; `same` keeps the keys. -/
def update (table : Table key) (change : ρ → ρ) (same : ∀ row, key (change row) = key row) : Table key :=
  ⟨table.rows.map change, by
    rw [List.map_map, show key ∘ change = key from funext same]
    exact table.nodup⟩

/-- Map the rows that meet a condition. -/
def updateWhere (table : Table key) (test : ρ → Bool) (change : ρ → ρ)
    (same : ∀ row, key (change row) = key row) : Table key :=
  table.update (fun row => if test row then change row else row) fun row => by
    split <;> simp only [same]

/-- Append a row, unless its key is present. -/
def insert (table : Table key) (row : ρ) : Table key :=
  if fresh : key row ∈ table.rows.map key then table
  else ⟨table.rows ++ [row], by
    rw [List.map_append, List.map_singleton]
    exact List.nodup_append.mpr ⟨table.nodup, List.nodup_singleton _,
      fun k present other single same => fresh (by rwa [← List.mem_singleton.mp single, ← same])⟩⟩

/-- Remove the rows that meet a condition. -/
def deleteWhere (table : Table key) (test : ρ → Bool) : Table key :=
  ⟨table.rows.filter fun row => !test row, table.nodup.sublist (List.filter_sublist.map key)⟩

theorem find?_eq_some_iff {table : Table key} {k : κ} {row : ρ} :
    table.find? k = some row ↔ row ∈ table.rows ∧ key row = k := by
  constructor
  · intro found
    exact ⟨List.mem_of_find?_eq_some found, by simpa using List.find?_some found⟩
  · rintro ⟨member, rfl⟩
    cases found : table.find? (key row) with
    | none => exact absurd member fun member => by simpa using List.find?_eq_none.mp found row member
    | some other =>
      have same : key other = key row := by simpa using List.find?_some found
      exact congrArg some (List.inj_on_of_nodup_map table.nodup (List.mem_of_find?_eq_some found) member same)

theorem find?_of_mem {table : Table key} {row : ρ} (member : row ∈ table.rows) :
    table.find? (key row) = some row := find?_eq_some_iff.mpr ⟨member, rfl⟩

theorem mem_of_find? {table : Table key} {k : κ} {row : ρ} (found : table.find? k = some row) :
    row ∈ table.rows := (find?_eq_some_iff.mp found).1

theorem key_of_find? {table : Table key} {k : κ} {row : ρ} (found : table.find? k = some row) :
    key row = k := (find?_eq_some_iff.mp found).2

theorem find?_eq_none_iff {table : Table key} {k : κ} : table.find? k = none ↔ k ∉ table.rows.map key := by
  simp [find?]

@[simp] theorem find?_update (table : Table key) (change : ρ → ρ) (same : ∀ row, key (change row) = key row)
    (k : κ) : (table.update change same).find? k = (table.find? k).map change := by
  simp only [find?, update, List.find?_map, Function.comp_def, same]

@[simp] theorem find?_updateWhere (table : Table key) (test : ρ → Bool) (change : ρ → ρ)
    (same : ∀ row, key (change row) = key row) (k : κ) :
    (table.updateWhere test change same).find? k =
      (table.find? k).map fun row => if test row then change row else row := find?_update ..

theorem rows_insert_fresh {table : Table key} {row : ρ} (fresh : table.find? (key row) = none) :
    (table.insert row).rows = table.rows ++ [row] := by
  rw [insert, dif_neg (find?_eq_none_iff.mp fresh)]

theorem find?_insert (table : Table key) (row : ρ) (k : κ) :
    (table.insert row).find? k = (table.find? k).or (if key row = k then some row else none) := by
  unfold insert
  split
  · next present =>
    by_cases same : key row = k
    · subst same
      cases found : table.find? (key row) with
      | none => exact absurd present (find?_eq_none_iff.mp found)
      | some other => rfl
    · simp only [if_neg same, Option.or_none]
  · simp only [find?, List.find?_append]
    congr 1
    by_cases same : key row = k <;> simp [same]

/-- A fresh row can be read back, and nothing else changes. -/
theorem find?_insert_fresh {table : Table key} {row : ρ} (fresh : table.find? (key row) = none) (k : κ) :
    (table.insert row).find? k = if key row = k then some row else table.find? k := by
  rw [find?_insert]
  by_cases same : key row = k
  · subst same
    simp only [fresh, ↓reduceIte, Option.none_or]
  · simp only [if_neg same, Option.or_none]

theorem find?_deleteWhere (table : Table key) (test : ρ → Bool) (k : κ) :
    (table.deleteWhere test).find? k = (table.find? k).filter fun row => !test row := by
  cases found : table.find? k with
  | none =>
    rw [Option.filter_none, find?_eq_none_iff]
    exact fun present => find?_eq_none_iff.mp found ((List.filter_sublist.map key).subset present)
  | some row =>
    obtain ⟨member, rfl⟩ := find?_eq_some_iff.mp found
    cases removed : test row with
    | false =>
      have kept : row ∈ (table.deleteWhere test).rows := List.mem_filter.mpr ⟨member, by simp [removed]⟩
      rw [find?_of_mem kept, Option.filter_some, removed]
      rfl
    | true =>
      simp only [removed, Option.filter_some, Bool.not_true, Bool.false_eq_true, ↓reduceIte, find?_eq_none_iff]
      intro present
      obtain ⟨other, kept, same⟩ := List.mem_map.mp present
      obtain ⟨stays, notRemoved⟩ := List.mem_filter.mp kept
      obtain rfl := List.inj_on_of_nodup_map table.nodup stays member same
      simp [removed] at notRemoved

theorem mem_rows_insert {table : Table key} {row other : ρ} (member : other ∈ (table.insert row).rows) :
    other ∈ table.rows ∨ other = row := by
  unfold insert at member
  split at member
  · exact .inl member
  · simpa using member

/-- A table whose rows are their own keys holds exactly what has been inserted. -/
theorem mem_rows_foldl_insert {table : Table (id : ρ → ρ)} [DecidableEq ρ] {rows : List ρ} {row : ρ} :
    row ∈ (rows.foldl insert table).rows ↔ row ∈ table.rows ∨ row ∈ rows := by
  have one (table : Table (id : ρ → ρ)) (first : ρ) : row ∈ (table.insert first).rows ↔ row ∈ table.rows ∨ row = first := by
    refine ⟨mem_rows_insert, fun either => ?_⟩
    unfold insert
    split
    · next present =>
      rw [List.map_id] at present
      obtain old | rfl := either
      · exact old
      · exact present
    · exact List.mem_append.mpr (either.imp_right fun same => List.mem_singleton.mpr same)
  induction rows generalizing table with
  | nil => simp
  | cons first rest ih =>
    rw [List.foldl_cons]
    exact ih.trans (by rw [one, List.mem_cons, or_assoc])

end Table
