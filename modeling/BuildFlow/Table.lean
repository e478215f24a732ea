/-!
Finite maps kept as a list of entries in the strict order of their keys. The
order is part of the type, so two tables with the same look-ups are equal, and
every listing of a table is sorted.
-/
namespace BuildFlow

/-- Entries in the strict order of their keys. -/
structure Table (κ α : Type) [LT κ] where
  entries : List (κ × α)
  sorted : entries.Pairwise fun a b => a.1 < b.1

namespace Table

section Entries

variable {κ α : Type} [LT κ] [DecidableLT κ] [DecidableEq κ]

/-- Puts an entry at its place; an entry of the same key is replaced. -/
def put (key : κ) (value : α) : List (κ × α) → List (κ × α)
  | [] => [(key, value)]
  | entry :: rest =>
      if key < entry.1 then (key, value) :: entry :: rest
      else if key = entry.1 then (key, value) :: rest
      else entry :: put key value rest

theorem mem_put {key : κ} {value : α} {entries : List (κ × α)} {entry : κ × α}
    (member : entry ∈ put key value entries) :
    entry = (key, value) ∨ entry ∈ entries := by
  induction entries with
  | nil => simpa [put] using member
  | cons head rest ih =>
      simp only [put] at member
      split at member
      · simpa using member
      · split at member
        · rcases List.mem_cons.mp member with same | old
          · exact Or.inl same
          · exact Or.inr (List.mem_cons_of_mem _ old)
        · rcases List.mem_cons.mp member with same | deeper
          · exact Or.inr (same ▸ List.mem_cons_self)
          · rcases ih deeper with new | old
            · exact Or.inl new
            · exact Or.inr (List.mem_cons_of_mem _ old)

theorem put_sorted [LE κ] [Std.LawfulOrderLT κ] [Std.IsLinearOrder κ]
    (key : κ) (value : α) {entries : List (κ × α)}
    (sorted : entries.Pairwise fun a b => a.1 < b.1) :
    (put key value entries).Pairwise fun a b => a.1 < b.1 := by
  induction entries with
  | nil => simp [put]
  | cons head rest ih =>
      have tail := List.pairwise_cons.mp sorted
      simp only [put]
      split
      · next before =>
          refine List.pairwise_cons.mpr ⟨?_, sorted⟩
          intro entry member
          rcases List.mem_cons.mp member with same | deeper
          · exact same ▸ before
          · exact Std.lt_trans before (tail.1 entry deeper)
      · next notBefore =>
          split
          · next same =>
              subst same
              exact List.pairwise_cons.mpr ⟨tail.1, tail.2⟩
          · next different =>
              refine List.pairwise_cons.mpr ⟨?_, ih tail.2⟩
              intro entry member
              rcases mem_put member with new | old
              · subst new
                exact Std.lt_of_le_of_ne (Std.not_lt.mp notBefore) (Ne.symm different)
              · exact tail.1 entry old

end Entries

variable {κ α β : Type} [LT κ] [DecidableLT κ] [DecidableEq κ]

def empty : Table κ α := ⟨[], List.Pairwise.nil⟩

instance : EmptyCollection (Table κ α) := ⟨empty⟩
instance : Inhabited (Table κ α) := ⟨empty⟩

def get? (table : Table κ α) (key : κ) : Option α :=
  table.entries.lookup key

def contains (table : Table κ α) (key : κ) : Bool :=
  (table.get? key).isSome

def insert [LE κ] [Std.LawfulOrderLT κ] [Std.IsLinearOrder κ]
    (table : Table κ α) (key : κ) (value : α) : Table κ α :=
  ⟨put key value table.entries, put_sorted key value table.sorted⟩

def erase (table : Table κ α) (key : κ) : Table κ α :=
  ⟨table.entries.filter fun entry => entry.1 ≠ key,
   table.sorted.sublist List.filter_sublist⟩

/-- Changes every value and keeps the keys. -/
def mapValues (f : κ → α → β) (table : Table κ α) : Table κ β :=
  ⟨table.entries.map fun entry => (entry.1, f entry.1 entry.2),
   List.pairwise_map.mpr table.sorted⟩

/-- Changes the value under one key, if there is one. -/
def modify (table : Table κ α) (key : κ) (f : α → α) : Table κ α :=
  table.mapValues fun name value => if name = key then f value else value

/-- Later entries win. -/
def ofList [LE κ] [Std.LawfulOrderLT κ] [Std.IsLinearOrder κ]
    (entries : List (κ × α)) : Table κ α :=
  entries.foldl (fun table entry => table.insert entry.1 entry.2) empty

def keys (table : Table κ α) : List κ :=
  table.entries.map (·.1)

def values (table : Table κ α) : List α :=
  table.entries.map (·.2)

def size (table : Table κ α) : Nat :=
  table.entries.length

def isEmpty (table : Table κ α) : Bool :=
  table.entries.isEmpty

end Table

end BuildFlow
