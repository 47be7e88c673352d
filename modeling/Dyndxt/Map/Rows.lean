import Mathlib.Data.List.Nodup
import Mathlib.Data.List.TakeDrop
import Mathlib.Data.List.TakeWhile

/-!
# Rows with a key

A list of rows as a map from their keys: the first row with a key is the one
it stands for. `amend` changes that row in place or appends a new one, so keys
stay distinct and in the order they first came.
-/

namespace Dyndxt.Map

section Definitions

variable {α κ : Type} [DecidableEq κ] (key : α → κ) (k : κ)

/-- The first row with the key. -/
def row (rows : List α) : Option α := rows.find? fun x => key x = k

/-- Change the first row with the key, or append a new one. -/
def amend (change : α → α) (new : α) : List α → List α
  | [] => [new]
  | x :: rows => if key x = k then change x :: rows else x :: amend change new rows

/-- Split before the first row with the key. -/
def seek (rows : List α) : List α × List α := rows.span fun x => key x ≠ k

/-- The first row with the key stands between these. -/
structure Located (rows before : List α) (x : α) (after : List α) : Prop where
  whole : rows = before ++ x :: after
  earlier : ∀ y ∈ before, key y ≠ k
  here : key x = k

def Absent (rows : List α) : Prop := ∀ y ∈ rows, key y ≠ k

end Definitions

variable {α β κ : Type} [DecidableEq κ] {key : α → κ} {k k' : κ} {change : α → α} {new x : α}
  {rows before after : List α}

@[simp] theorem row_nil : row key k [] = none := rfl

theorem row_cons : row key k (x :: rows) = if key x = k then some x else row key k rows := by
  unfold row
  by_cases same : key x = k
  · simp [same]
  · simp [same]

theorem key_of_row (h : row key k rows = some x) : key x = k := by
  simpa using List.find?_some h

theorem mem_of_row (h : row key k rows = some x) : x ∈ rows := List.mem_of_find?_eq_some h

theorem row_isSome : (row key k rows).isSome ↔ k ∈ rows.map key := by
  simp only [row, List.find?_isSome, List.mem_map, decide_eq_true_eq]

/-- Under distinct keys a row is the one its key stands for. -/
theorem row_of_mem (distinct : (rows.map key).Nodup) (mem : x ∈ rows) : row key (key x) rows = some x := by
  induction rows with
  | nil => cases mem
  | cons y rows ih =>
    simp only [List.map_cons, List.nodup_cons] at distinct
    rw [row_cons]
    rcases List.mem_cons.mp mem with rfl | later
    · rw [if_pos rfl]
    · have differs : key y ≠ key x := fun same => distinct.1 (same ▸ List.mem_map_of_mem later)
      rw [if_neg differs, ih distinct.2 later]

/-! ## Amending -/

section Amend

variable (keeps : ∀ x, key x = k → key (change x) = k) (named : key new = k)

include keeps named

theorem row_amend : row key k' (amend key k change new rows) =
    if k' = k then some (((row key k rows).map change).getD new) else row key k' rows := by
  induction rows with
  | nil =>
    simp only [amend, row_cons, named, row_nil, Option.map_none, Option.getD_none]
    by_cases same : k' = k
    · simp [same]
    · simp [same, Ne.symm same]
  | cons x rows ih =>
    unfold amend
    by_cases here : key x = k
    · rw [if_pos here, row_cons, row_cons, row_cons, keeps x here, here, if_pos rfl]
      by_cases same : k' = k
      · simp [same]
      · simp [same, Ne.symm same]
    · rw [if_neg here, row_cons, row_cons, ih, row_cons, if_neg here]
      by_cases same : k' = k
      · simp [same, here]
      · simp [same]

/-- The keys in order: a new one comes last. -/
theorem keys_amend : (amend key k change new rows).map key =
    if k ∈ rows.map key then rows.map key else rows.map key ++ [k] := by
  induction rows with
  | nil => simp [amend, named]
  | cons x rows ih =>
    unfold amend
    by_cases here : key x = k
    · simp [here, keeps x here]
    · rw [if_neg here, List.map_cons, ih, List.map_cons]
      by_cases later : k ∈ rows.map key
      · rw [if_pos later, if_pos (List.mem_cons_of_mem _ later)]
      · have absent : k ∉ key x :: rows.map key := by
          simp only [List.mem_cons, not_or]
          exact ⟨Ne.symm here, later⟩
        rw [if_neg later, if_neg absent, List.cons_append]

theorem mem_keys_amend : k' ∈ (amend key k change new rows).map key ↔ k' = k ∨ k' ∈ rows.map key := by
  rw [keys_amend keeps named]
  split
  case isTrue known =>
    constructor
    · exact .inr
    · rintro (rfl | mem)
      · exact known
      · exact mem
  case isFalse => rw [List.mem_append, List.mem_singleton, or_comm]

theorem nodup_amend (distinct : (rows.map key).Nodup) :
    ((amend key k change new rows).map key).Nodup := by
  rw [keys_amend keeps named]
  split
  case isTrue => exact distinct
  case isFalse absent =>
    rw [← List.concat_eq_append]
    exact distinct.concat absent

end Amend

/-- What holds of every row, and of the rows amended, holds afterwards. -/
theorem forall_amend {P : α → Prop} (old : ∀ x ∈ rows, P x) (changed : ∀ x ∈ rows, P (change x))
    (fresh : P new) : ∀ x ∈ amend key k change new rows, P x := by
  induction rows with
  | nil => simpa [amend] using fresh
  | cons y rows ih =>
    simp only [List.mem_cons, forall_eq_or_imp] at old changed
    unfold amend
    split
    · simp only [List.mem_cons, forall_eq_or_imp]
      exact ⟨changed.1, old.2⟩
    · simp only [List.mem_cons, forall_eq_or_imp]
      exact ⟨old.1, ih old.2 changed.2⟩

/-- Amending by a search for the row. -/
theorem amend_seek : amend key k change new rows = (seek key k rows).1 ++
    ((seek key k rows).2.head?.map change).getD new :: (seek key k rows).2.tail := by
  induction rows with
  | nil => rfl
  | cons x rows ih =>
    simp only [seek, List.span_eq_takeWhile_dropWhile] at ih ⊢
    by_cases here : key x = k
    · simp [amend, here]
    · simp [amend, here, ih]

/-- A search in rows that were mapped without changing their keys. -/
theorem seek_map {key' : β → κ} {f : α → β} (same : ∀ x, key' (f x) = key x) :
    seek key' k (rows.map f) = ((seek key k rows).1.map f, (seek key k rows).2.map f) := by
  induction rows with
  | nil => rfl
  | cons x rows ih =>
    simp only [seek, List.span_eq_takeWhile_dropWhile, Prod.mk.injEq] at ih ⊢
    by_cases here : key x = k
    · simp [same, here]
    · simpa [same, here] using ih

theorem seek_append : (seek key k rows).1 ++ (seek key k rows).2 = rows := by
  simp [seek, List.span_eq_takeWhile_dropWhile]

/-- The row a search stops at is the one the key stands for. -/
theorem row_seek : row key k rows = (seek key k rows).2.head? := by
  induction rows with
  | nil => rfl
  | cons x rows ih =>
    simp only [seek, List.span_eq_takeWhile_dropWhile] at ih ⊢
    rw [row_cons]
    by_cases here : key x = k
    · simp [here]
    · simp [here, ih]

theorem row_map {key' : β → κ} {f : α → β} (same : ∀ x, key' (f x) = key x) :
    row key' k (rows.map f) = (row key k rows).map f := by
  rw [row_seek, row_seek, seek_map same, List.head?_map]

/-! ## What a search finds -/

theorem located_of_seek (found : seek key k rows = (before, x :: after)) : Located key k rows before x after := by
  have whole := @seek_append _ _ _ key k rows
  have first := @row_seek _ _ _ key k rows
  rw [found] at whole first
  refine ⟨whole.symm, fun y listed => ?_, key_of_row first⟩
  have passed : y ∈ rows.takeWhile fun x => decide (key x ≠ k) := by
    rw [seek, List.span_eq_takeWhile_dropWhile] at found
    rwa [(Prod.mk.inj found).1]
  simpa using List.mem_takeWhile_imp passed

theorem absent_of_seek (found : seek key k rows = (before, [])) : before = rows ∧ Absent key k rows := by
  have whole := @seek_append _ _ _ key k rows
  have first := @row_seek _ _ _ key k rows
  rw [found] at whole first
  rw [List.append_nil] at whole
  refine ⟨whole, fun y listed same => ?_⟩
  have known : (row key k rows).isSome := row_isSome.mpr (List.mem_map.mpr ⟨y, listed, same⟩)
  rw [first] at known
  cases known

theorem Absent.row (absent : Absent key k rows) : row key k rows = none := by
  rw [Map.row, List.find?_eq_none]
  intro y listed
  simpa using absent y listed

theorem Located.row (located : Located key k rows before x after) : row key k rows = some x := by
  obtain ⟨rfl, earlier, here⟩ := located
  have none := Absent.row earlier
  unfold Map.row at none ⊢
  rw [List.find?_append, none, Option.none_or]
  exact List.find?_cons_of_pos (by simpa using here)

omit [DecidableEq κ] in
/-- Under distinct keys every row is the one its key stands for. -/
theorem located_of_nodup (distinct : (rows.map key).Nodup) (whole : rows = before ++ x :: after) :
    Located key (key x) rows before x after := by
  subst whole
  refine ⟨rfl, fun y listed same => ?_, rfl⟩
  rw [List.map_append, List.map_cons] at distinct
  refine (List.disjoint_of_nodup_append distinct) (List.mem_map_of_mem listed) ?_
  rw [same]
  exact List.mem_cons_self

theorem Located.seek (located : Located key k rows before x after) : seek key k rows = (before, x :: after) := by
  obtain ⟨rfl, earlier, here⟩ := located
  unfold Map.seek
  rw [List.span_eq_takeWhile_dropWhile]
  have pass : ∀ y ∈ before, decide (key y ≠ k) = true := fun y listed => decide_eq_true (earlier y listed)
  rw [List.takeWhile_append_of_pos pass, List.dropWhile_append_of_pos pass, List.takeWhile_cons_of_neg (by simpa),
    List.dropWhile_cons_of_neg (by simpa), List.append_nil]

theorem Absent.seek (absent : Absent key k rows) : (seek key k rows).2 = [] := by
  have none := absent.row
  rw [row_seek, List.head?_eq_none_iff] at none
  exact none

theorem amend_absent (absent : k ∉ rows.map key) : amend key k change new rows = rows ++ [new] := by
  induction rows with
  | nil => rfl
  | cons y rows ih =>
    rw [List.map_cons, List.mem_cons, not_or] at absent
    rw [amend, if_neg fun same => absent.1 same.symm, ih absent.2, List.cons_append]

/-- What only the new row satisfies is found at it. -/
theorem find_amend {p : α → Bool} (satisfies : p new = true) (others : ∀ y ∈ rows, p y = false) :
    (amend key k (fun _ => new) new rows).find? p = some new := by
  induction rows with
  | nil => simp [amend, satisfies]
  | cons y rows ih =>
    unfold amend
    by_cases here : key y = k
    · rw [if_pos here, List.find?_cons_of_pos satisfies]
    · have first := others y List.mem_cons_self
      rw [if_neg here, List.find?_cons_of_neg (by rw [first]; exact Bool.false_ne_true)]
      exact ih fun z later => others z (List.mem_cons_of_mem _ later)

end Dyndxt.Map
