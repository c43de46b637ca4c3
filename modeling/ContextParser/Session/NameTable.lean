import ContextParser.Inspect

/-!
# Tables of names

A table holds the names that were declared. It is kept in ascending order without repetition, so two
tables with the same members are equal, whatever the order in which the names came in.
-/

set_option autoImplicit false

namespace ContextParser.Session

/-- Put a name into its place in an ascending list, unless it is there already. -/
def insertAscending (name : String) : List String → List String
  | [] => [name]
  | first :: others =>
    if name < first then name :: first :: others
    else if name = first then first :: others
    else first :: insertAscending name others

/-- A name that is put in its place joins the names that were there, and none is lost. -/
theorem mem_insertAscending {name other : String} {names : List String} :
    other ∈ insertAscending name names ↔ other = name ∨ other ∈ names := by
  fun_induction insertAscending name names with
  | case1 => simp
  | case2 => simp
  | case3 others => simp
  | case4 first others _ _ ih =>
    rw [List.mem_cons, ih, List.mem_cons]
    exact or_left_comm

/-- Ascending names stay ascending, and a name that is there already is not doubled. -/
theorem pairwise_insertAscending {name : String} {names : List String}
    (h : names.Pairwise (· < ·)) : (insertAscending name names).Pairwise (· < ·) := by
  fun_induction insertAscending name names with
  | case1 => simp
  | case2 first others hlt =>
    refine List.pairwise_cons.2 ⟨?_, h⟩
    intro other hmem
    rcases List.mem_cons.1 hmem with rfl | hmem
    · exact hlt
    · exact String.lt_trans hlt (List.rel_of_pairwise_cons h hmem)
  | case3 => exact h
  | case4 first others hlt hne ih =>
    refine List.pairwise_cons.2 ⟨?_, ih h.of_cons⟩
    intro other hmem
    rcases mem_insertAscending.1 hmem with rfl | hmem
    · exact Std.lt_of_le_of_ne (String.not_lt.1 hlt) (Ne.symm hne)
    · exact List.rel_of_pairwise_cons h hmem

/-- Two ascending lists with the same members are the same list: of the two first names neither can
be below the other. -/
theorem eq_of_mem_iff {names others : List String} (hn : names.Pairwise (· < ·))
    (ho : others.Pairwise (· < ·)) (h : ∀ name, name ∈ names ↔ name ∈ others) : names = others := by
  induction names generalizing others with
  | nil =>
    cases others with
    | nil => rfl
    | cons b bs => exact absurd ((h b).2 List.mem_cons_self) List.not_mem_nil
  | cons a as ih =>
    cases others with
    | nil => exact absurd ((h a).1 List.mem_cons_self) List.not_mem_nil
    | cons b bs =>
      have hab : a = b := by
        rcases List.mem_cons.1 ((h a).1 List.mem_cons_self) with hab | hmem
        · exact hab
        -- else each of the two names stands behind the other, and is larger than it
        · rcases List.mem_cons.1 ((h b).2 List.mem_cons_self) with hba | hmem'
          · exact hba.symm
          · exact absurd (List.rel_of_pairwise_cons hn hmem')
              (String.lt_asymm (List.rel_of_pairwise_cons ho hmem))
      subst hab
      rw [ih hn.of_cons ho.of_cons]
      intro name
      constructor
      · intro hmem
        rcases List.mem_cons.1 ((h name).1 (List.mem_cons_of_mem a hmem)) with rfl | hmem'
        · exact absurd (List.rel_of_pairwise_cons hn hmem) (String.lt_irrefl _)
        · exact hmem'
      · intro hmem
        rcases List.mem_cons.1 ((h name).2 (List.mem_cons_of_mem a hmem)) with rfl | hmem'
        · exact absurd (List.rel_of_pairwise_cons ho hmem) (String.lt_irrefl _)
        · exact hmem'

/-- The names that were declared. -/
structure NameTable where
  /-- The names in ascending order. -/
  names : List String
  ascending : names.Pairwise (· < ·)
deriving DecidableEq

namespace NameTable

/-- The table without names. -/
def empty : NameTable :=
  { names := [], ascending := .nil }

/-- Declare a name. -/
def insert (table : NameTable) (name : String) : NameTable where
  names := insertAscending name table.names
  ascending := pairwise_insertAscending table.ascending

instance : Membership String NameTable where
  mem table name := name ∈ table.names

instance (name : String) (table : NameTable) : Decidable (name ∈ table) :=
  inferInstanceAs (Decidable (name ∈ table.names))

instance : Inspect NameTable where
  inspect table := Inspect.set (table.names.map inspect)

/-- A table is its set of members. -/
theorem eq_of_same_members {table other : NameTable} (h : ∀ name, name ∈ table ↔ name ∈ other) :
    table = other := by
  cases table with
  | mk names ascending =>
    cases other with
    | mk others ascending' =>
      obtain rfl : names = others := eq_of_mem_iff ascending ascending' h
      rfl

/-- The empty table holds no name. -/
theorem not_mem_empty (name : String) : ¬name ∈ empty := List.not_mem_nil

/-- A table with a name added holds that name and those it held before. -/
theorem mem_insert {table : NameTable} {name other : String} :
    other ∈ table.insert name ↔ other = name ∨ other ∈ table :=
  mem_insertAscending

end NameTable

end ContextParser.Session
