import BuildFlow.Params
import BuildFlow.Proofs.Secrecy.Runner
import Mathlib.Data.List.Nodup
/-!
The order in which parameters are shown. What is named before the first star comes first, and what is
named only from there on comes last, each where it is named first. What is not named at all is sorted
and comes in between.
-/
namespace BuildFlow

namespace Table

variable {κ α : Type} [LT κ] [DecidableLT κ] [DecidableEq κ] {table : Table κ α} {key : κ}
  {value : α} {entry : κ × α}

omit [DecidableLT κ] in
theorem mem_erase : entry ∈ (table.erase key).entries ↔ entry ∈ table.entries ∧ entry.1 ≠ key := by
  simp [erase]

omit [DecidableLT κ] in
theorem not_mem_of_get?_eq_none (missing : table.get? key = none) (member : entry ∈ table.entries) :
    entry.1 ≠ key := by
  rintro rfl
  simpa using List.lookup_eq_none_iff.mp missing entry member

omit [DecidableLT κ] in
theorem erase_of_get?_eq_none (missing : table.get? key = none) : table.erase key = table := by
  apply ext_entries
  refine List.filter_eq_self.mpr fun entry member => ?_
  simpa using not_mem_of_get?_eq_none missing member

omit [DecidableLT κ] [DecidableEq κ] in
theorem nodup_keys [LE κ] [Std.LawfulOrderLT κ] [Std.IsPreorder κ] (table : Table κ α) :
    table.keys.Nodup :=
  List.pairwise_map.mpr <| table.sorted.imp fun {first second} before same => by
    rw [same] at before
    exact Std.lt_irrefl before

omit [DecidableLT κ] in
theorem get?_eq_some_iff [LE κ] [Std.LawfulOrderLT κ] [Std.IsPreorder κ] :
    table.get? key = some value ↔ (key, value) ∈ table.entries := by
  refine ⟨mem_of_lookup, fun member => ?_⟩
  cases found : table.get? key with
  | none => exact absurd rfl (not_mem_of_get?_eq_none found member)
  | some other =>
      have same : (key, other) = (key, value) :=
        List.inj_on_of_nodup_map table.nodup_keys (mem_of_lookup found) member rfl
      rw [(Prod.mk.inj same).2]

end Table

namespace Params

/-! ## Picked names -/

/-- The parameters with these names, each where its name comes first. -/
def named (params : Params) : List String → List (String × String)
  | [] => []
  | name :: names =>
      ((params.get? name).map fun value => (name, value)).toList ++ named (params.erase name) names

/-- The parameters with other names. -/
def without (params : Params) (names : List String) : Params := names.foldl Table.erase params

variable {params : Params} {names order : List String} {entry : String × String}

theorem mem_without : entry ∈ (params.without names).entries ↔
    entry ∈ params.entries ∧ entry.1 ∉ names := by
  unfold without
  induction names generalizing params with
  | nil => simp
  | cons name names ih =>
      rw [List.foldl_cons, ih, Table.mem_erase, List.mem_cons, not_or, and_assoc]

theorem mem_named : entry ∈ params.named names ↔ entry ∈ params.entries ∧ entry.1 ∈ names := by
  induction names generalizing params with
  | nil => simp [named]
  | cons name names ih =>
      have first : entry ∈ ((params.get? name).map fun value => (name, value)).toList ↔
          entry ∈ params.entries ∧ entry.1 = name := by
        rw [Option.mem_toList, Option.map_eq_some_iff]
        constructor
        · rintro ⟨value, found, rfl⟩
          exact ⟨Table.get?_eq_some_iff.mp found, rfl⟩
        · rintro ⟨member, rfl⟩
          exact ⟨entry.2, Table.get?_eq_some_iff.mpr member, rfl⟩
      rw [named, List.mem_append, first, ih, Table.mem_erase, List.mem_cons]
      grind

/-- Each entry has its name before the other in the list. -/
def Precedes (names : List String) (entry other : String × String) : Prop :=
  names.idxOf entry.1 < names.idxOf other.1

theorem named_ordered (params : Params) (names : List String) :
    (params.named names).Pairwise (Precedes names) := by
  induction names generalizing params with
  | nil => exact .nil
  | cons name names ih =>
      have others {entry : String × String} (member : entry ∈ named (params.erase name) names) :
          (name :: names).idxOf entry.1 = names.idxOf entry.1 + 1 := by
        have other : entry.1 ≠ name := (Table.mem_erase.mp (mem_named.mp member).1).2
        exact List.idxOf_cons_ne _ other.symm
      refine List.pairwise_append.mpr ⟨?_, (ih _).imp_of_mem ?_, ?_⟩
      · cases params.get? name with
        | none => exact .nil
        | some value => exact List.pairwise_singleton _ _
      · intro entry other member member' before
        unfold Precedes
        rw [others member, others member']
        exact Nat.succ_lt_succ before
      · intro entry first other member
        obtain ⟨value, -, rfl⟩ := Option.map_eq_some_iff.mp (Option.mem_toList.mp first)
        unfold Precedes
        rw [others member, List.idxOf_cons_self]
        exact Nat.succ_pos _

namespace Arrangement

variable {arrangement : Arrangement}

theorem pick_front (before : arrangement.pastStar = false) {name : String} (plain : name ≠ "*") :
    arrangement.pick name =
      { arrangement with
        remaining := arrangement.remaining.erase name
        front := ((arrangement.remaining.get? name).map fun value => (name, value)).toList ++
          arrangement.front } := by
  unfold pick
  rw [before, decide_eq_false plain, Bool.or_false]
  cases found : arrangement.remaining.get? name with
  | none => simp [Table.erase_of_get?_eq_none found, ← before]
  | some value => simp [← before]

theorem pick_back (past : arrangement.pastStar = true) (name : String) :
    arrangement.pick name =
      { arrangement with
        remaining := arrangement.remaining.erase name
        back := ((arrangement.remaining.get? name).map fun value => (name, value)).toList ++
          arrangement.back } := by
  unfold pick
  rw [past, Bool.true_or]
  cases found : arrangement.remaining.get? name with
  | none => simp [Table.erase_of_get?_eq_none found, ← past]
  | some value => simp [← past]

theorem reverse_toList {α : Type} (value : Option α) : value.toList.reverse = value.toList := by
  cases value <;> rfl

/-- Names before the first star are picked for the front. -/
theorem foldl_pick_front (before : arrangement.pastStar = false) (plain : "*" ∉ names) :
    names.foldl pick arrangement =
      { arrangement with
        remaining := arrangement.remaining.without names
        front := (arrangement.remaining.named names).reverse ++ arrangement.front } := by
  induction names generalizing arrangement with
  | nil => simp [without, named]
  | cons name names ih =>
      obtain ⟨other, plain⟩ := not_or.mp (List.mem_cons.not.mp plain)
      rw [List.foldl_cons, pick_front before (Ne.symm other), ih (by exact before) plain]
      simp [without, named, reverse_toList]

/-- From the first star on, names are picked for the back. -/
theorem foldl_pick_back (past : arrangement.pastStar = true) :
    names.foldl pick arrangement =
      { arrangement with
        remaining := arrangement.remaining.without names
        back := (arrangement.remaining.named names).reverse ++ arrangement.back } := by
  induction names generalizing arrangement with
  | nil => simp [without, named]
  | cons name names ih =>
      rw [List.foldl_cons, pick_back past, ih (by exact past)]
      simp [without, named, reverse_toList]

/-- The star itself may be the name of a parameter. It is picked for the back then. -/
theorem pick_star (remaining : Params) (front back : List (String × String)) :
    pick ⟨remaining, front, back, false⟩ "*" = pick ⟨remaining, front, back, true⟩ "*" := rfl

end Arrangement

/-! ## The whole order -/

/-- Up to the first star, if there is one, names are picked for the front. -/
theorem displayOrder_eq (params : Params) (order : List String) :
    ∃ early late, order = early ++ late ∧ "*" ∉ early ∧ (late = [] ∨ ∃ rest, late = "*" :: rest) ∧
      displayOrder params order = params.named early ++ (params.without order).entries ++
        (params.without early).named late := by
  by_cases starred : "*" ∈ order
  · obtain ⟨early, rest, rfl, plain⟩ := List.eq_append_cons_of_mem starred
    refine ⟨early, "*" :: rest, rfl, plain, .inr ⟨rest, rfl⟩, ?_⟩
    unfold displayOrder
    rw [List.foldl_append, Arrangement.foldl_pick_front rfl plain, List.foldl_cons,
      Arrangement.pick_star, ← List.foldl_cons, Arrangement.foldl_pick_back rfl]
    simp [Arrangement.entries, without]
  · refine ⟨order, [], (List.append_nil _).symm, starred, .inl rfl, ?_⟩
    unfold displayOrder
    rw [Arrangement.foldl_pick_front rfl starred]
    simp [Arrangement.entries, named]

/-- Entries in the order that a list of names asks for. -/
structure Arranged (params : Params) (order : List String)
    (front rest back : List (String × String)) : Prop where
  /-- In front are those that are named before the first star. -/
  mem_front : ∀ entry, entry ∈ front ↔
    entry ∈ params.entries ∧ order.idxOf entry.1 < order.idxOf "*"
  front_ordered : front.Pairwise (Precedes order)
  mem_rest : ∀ entry, entry ∈ rest ↔ entry ∈ params.entries ∧ entry.1 ∉ order
  rest_sorted : rest.Pairwise fun entry other => entry.1 < other.1
  /-- At the back are those that are named, but not before the first star. -/
  mem_back : ∀ entry, entry ∈ back ↔
    entry ∈ params.entries ∧ entry.1 ∈ order ∧ order.idxOf "*" ≤ order.idxOf entry.1
  back_ordered : back.Pairwise (Precedes order)

section

variable {front rest back : List (String × String)}

theorem nodup_of_ordered {shown : List (String × String)} (ordered : shown.Pairwise (Precedes order)) :
    shown.Nodup :=
  ordered.imp fun {entry other} before same => by
    rw [same] at before
    exact Nat.lt_irrefl _ before

/-- The three parts are all entries, and no entry is in two of them. -/
theorem Arranged.perm (arranged : Arranged params order front rest back) :
    (front ++ rest ++ back).Perm params.entries := by
  obtain ⟨front_iff, frontOrder, rest_iff, restOrder, back_iff, backOrder⟩ := arranged
  have distinct : params.entries.Nodup := params.nodup_keys.of_map _
  have sorted : rest.Nodup := restOrder.imp fun {entry other} before same => by
    rw [same] at before
    exact Std.lt_irrefl before
  have early {entry : String × String} (first : entry ∈ front) : entry.1 ∈ order :=
    List.idxOf_lt_length_iff.mp
      (Nat.lt_of_lt_of_le ((front_iff entry).mp first).2 List.idxOf_le_length)
  -- Names of the order and names outside of it never meet, and the star divides the former.
  have parts : (front ++ rest ++ back).Nodup := by
    refine List.nodup_append.mpr ⟨List.nodup_append.mpr ⟨nodup_of_ordered frontOrder, sorted, ?_⟩,
      nodup_of_ordered backOrder, ?_⟩
    · rintro entry first _ second rfl
      exact ((rest_iff entry).mp second).2 (early first)
    · rintro entry member _ last rfl
      obtain ⟨-, named, behind⟩ := (back_iff entry).mp last
      rcases List.mem_append.mp member with first | second
      · exact Nat.not_lt.mpr behind ((front_iff entry).mp first).2
      · exact ((rest_iff entry).mp second).2 named
  refine (List.perm_ext_iff_of_nodup parts distinct).mpr fun entry => ?_
  rw [List.mem_append, List.mem_append, front_iff, rest_iff, back_iff]
  constructor
  · rintro ((first | second) | last)
    · exact first.1
    · exact second.1
    · exact last.1
  · intro member
    by_cases named : entry.1 ∈ order
    · rcases Nat.lt_or_ge (order.idxOf entry.1) (order.idxOf "*") with before | behind
      · exact .inl (.inl ⟨member, before⟩)
      · exact .inr ⟨member, named, behind⟩
    · exact .inl (.inr ⟨member, named⟩)

end

section

variable {early late : List String} {name : String}

/-- What comes before the first star is what is named in the part before it. -/
theorem idxOf_lt_length_append : (early ++ late).idxOf name < early.length ↔ name ∈ early := by
  rw [List.idxOf_append]
  split
  · next member => exact iff_of_true (List.idxOf_lt_length_iff.mpr member) member
  · next absent => exact iff_of_false (Nat.not_lt.mpr (Nat.le_add_left _ _)) absent

theorem idxOf_star (plain : "*" ∉ early) (starts : late = [] ∨ ∃ rest, late = "*" :: rest) :
    (early ++ late).idxOf "*" = early.length := by
  rw [List.idxOf_append_of_notMem plain]
  rcases starts with rfl | ⟨rest, rfl⟩
  · exact congrArg _ List.idxOf_nil
  · exact congrArg _ List.idxOf_cons_self

theorem arranged_named (params : Params) (plain : "*" ∉ early)
    (starts : late = [] ∨ ∃ rest, late = "*" :: rest) :
    Arranged params (early ++ late) (params.named early) (params.without (early ++ late)).entries
      ((params.without early).named late) where
  mem_front entry := by
    rw [idxOf_star plain starts, idxOf_lt_length_append]
    exact mem_named
  front_ordered := by
    refine (named_ordered params early).imp_of_mem fun {entry other} member member' before => ?_
    unfold Precedes
    rw [List.idxOf_append_of_mem (mem_named.mp member).2,
      List.idxOf_append_of_mem (mem_named.mp member').2]
    exact before
  mem_rest entry := mem_without
  rest_sorted := (params.without (early ++ late)).sorted
  mem_back entry := by
    rw [mem_named, mem_without, idxOf_star plain starts, ← Nat.not_lt, idxOf_lt_length_append,
      List.mem_append]
    tauto
  back_ordered := by
    have behind {entry : String × String} (member : entry ∈ (params.without early).named late) :
        (early ++ late).idxOf entry.1 = early.length + late.idxOf entry.1 :=
      List.idxOf_append_of_notMem (mem_without.mp (mem_named.mp member).1).2
    refine (named_ordered _ late).imp_of_mem fun {entry other} member member' before => ?_
    unfold Precedes
    rw [behind member, behind member']
    exact Nat.add_lt_add_left before _

end

/-- Every parameter is shown once, with its value. First come those that are named before the first
star, in the order of their first mention, then all that are not named, sorted by name, and then
those that are first named at the first star or after it, in the order of their first mention. If
there is no star, those that are not named come last. -/
theorem displayOrder_arranged (params : Params) (order : List String) :
    (displayOrder params order).Perm params.entries ∧
      ∃ front rest back, displayOrder params order = front ++ rest ++ back ∧
        Arranged params order front rest back ∧ ("*" ∉ order → back = []) := by
  obtain ⟨early, late, rfl, plain, starts, shown⟩ := displayOrder_eq params order
  have arranged := arranged_named params plain starts
  refine ⟨shown ▸ arranged.perm, _, _, _, shown, arranged, fun starless => ?_⟩
  rcases starts with rfl | ⟨rest, rfl⟩
  · rfl
  · exact absurd (List.mem_append_right _ List.mem_cons_self) starless

example :
    displayOrder (.ofValues [("a", .int 1), ("b", .int 2), ("c", .int 3), ("*", .flag true)])
      ["c", "x", "*", "c", "a"] = [("c", "3"), ("b", "2"), ("*", "true"), ("a", "1")] := by
  decide +kernel

end Params

end BuildFlow
