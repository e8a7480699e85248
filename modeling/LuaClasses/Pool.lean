/-!
This module contains pools of names, with which a search over a graph of names keeps track of the
nodes that it has not visited. A search takes a name out of the pool with every node it visits, so
the length of the pool bounds it.
-/

namespace LuaClasses

/--
The names that a search has not visited.
-/
abbrev Pool := List String

namespace Pool

def remove (pool : Pool) (name : String) : Pool :=
  pool.filter (· != name)

/--
The pending nodes from the first one on whose name is in the pool.
-/
def pendingFrom (pool : Pool) (nameOf : α → String) (pending : List α) : List α :=
  pending.dropWhile fun a => !pool.contains (nameOf a)

theorem mem_of_pendingFrom {pool : Pool} {nameOf : α → String} {pending rest : List α} {a : α}
    (h : pool.pendingFrom nameOf pending = a :: rest) : nameOf a ∈ pool := by
  unfold pendingFrom at h
  induction pending with
  | nil => simp at h
  | cons b pending ih =>
    rw [List.dropWhile_cons] at h
    split at h
    next => exact ih h
    next hb =>
      simp only [List.cons.injEq] at h
      simpa [h.1] using hb

theorem mem_remove {pool : Pool} {name n : String} :
    n ∈ pool.remove name ↔ n ∈ pool ∧ n ≠ name := by
  simp [remove]

theorem length_remove_lt {pool : Pool} {name : String} (h : name ∈ pool) :
    (pool.remove name).length < pool.length := by
  have hle := List.length_filter_le (· != name) pool
  have hne : (pool.filter (· != name)).length ≠ pool.length := by
    intro heq
    simpa using List.length_filter_eq_length_iff.1 heq name h
  unfold remove
  omega

end Pool

end LuaClasses
