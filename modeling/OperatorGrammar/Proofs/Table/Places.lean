/-
# Proofs.Table.Places -- the places of names

A name has a place exactly if it has an entry, and the entry at its place is the one that a
look-up finds (`find?_of_index?`).  Where names are distinct, the place of a name is the only
one with an entry of that name (`index?_eq_some_iff`).  An insertion adds its name at the end
or not at all, so it moves no name (`index?_insert`).
-/
import OperatorGrammar.Proofs.Table.Invariant

namespace OperatorGrammar.Table

set_option autoImplicit false

variable {t : Table} {name : String} {index : Nat} {e : Entry} {op : Operator}

theorem index?_eq_findIdx? (t : Table) (name : String) :
    t.index? name = (t.entries.map Entry.name).findIdx? (· = name) := by
  rw [index?, List.findIdx?_map]
  rfl

theorem index?_eq_none_iff : t.index? name = none ↔ t.find? name = none := by
  rw [index?, find?, List.findIdx?_eq_none_iff, List.find?_eq_none]
  simp

/-- The place of a name keeps the entry of the name. -/
theorem find?_of_index? (found : t.index? name = some index) :
    ∃ e, t.get? index = some e ∧ t.find? name = some e := by
  obtain ⟨bound, named, first⟩ := List.findIdx?_eq_some_iff_getElem.1 found
  refine ⟨t.entries[index], List.getElem?_eq_getElem bound, List.find?_eq_some_iff_getElem.2 ?_⟩
  exact ⟨named, index, bound, rfl, fun j before => by simpa using first j before⟩

theorem index?_eq_some_iff (distinct : (t.entries.map Entry.name).Nodup) :
    t.index? name = some index ↔ ∃ e, t.get? index = some e ∧ e.name = name := by
  constructor
  · intro found
    obtain ⟨e, kept, looked⟩ := find?_of_index? found
    exact ⟨e, kept, (mem_of_find? looked).2⟩
  · rintro ⟨e, kept, rfl⟩
    obtain ⟨bound, rfl⟩ := List.getElem?_eq_some_iff.1 kept
    refine List.findIdx?_eq_some_iff_getElem.2 ⟨bound, by simp, fun j before => ?_⟩
    have apart := List.pairwise_iff_getElem.1 distinct j index (by simp; omega) (by simpa) before
    simpa using apart

theorem find?_of_mem (distinct : (t.entries.map Entry.name).Nodup) (member : e ∈ t.entries) :
    t.find? e.name = some e := by
  obtain ⟨index, kept⟩ := List.mem_iff_getElem?.1 member
  obtain ⟨e', kept', looked⟩ :=
    find?_of_index? ((index?_eq_some_iff distinct).2 ⟨e, kept, rfl⟩)
  rw [looked]
  exact kept'.symm.trans kept

theorem index?_insert (found : t.index? name = some index) :
    (t.insert op).index? name = some index := by
  rw [index?_eq_findIdx?] at found ⊢
  rw [insert, names_insertInto]
  split
  · exact found
  · rw [List.findIdx?_append, found]
    rfl

end OperatorGrammar.Table
