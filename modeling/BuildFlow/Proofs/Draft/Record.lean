import BuildFlow.Proofs.Draft.Session
/-!
What a log tells about the nodes that were declared: which ids were given out, where each invocation
was declared, which groups were dropped, and what the options of a group are.
-/
namespace BuildFlow.Draft

namespace Log

/-- An invocation that was declared. -/
structure Placed where
  id : Nat
  parent : GroupRef
  job : String
  /-- The groups that were open then, from the inside out. -/
  scope : List GroupRef

/-- The ids of all nodes that were declared, in the order of the commands. The root has the
first. -/
def ids : Log → List Nat
  | [] => [0]
  | (.begin .., .ok (.group ref)) :: log => ids log ++ [ref.id]
  | (.invoke .., .ok (.job id)) :: log => ids log ++ [id]
  | _ :: log => ids log

/-- All invocations, in the order of the commands. -/
def placed : Log → List Placed
  | [] => []
  | (.invoke parent job _ _, .ok (.job id)) :: log => placed log ++ [⟨id, parent, job, scope log⟩]
  | _ :: log => placed log

/-- The invocations in one group. -/
def placedIn (log : Log) (group : Nat) : List Nat :=
  (log.placed.filter fun placed => placed.parent.id = group).map Placed.id

/-- The groups that were dropped with all that was declared in them. -/
def dropped : Log → List Nat
  | [] => []
  | (.drop group, .ok _) :: log =>
      if dropsFrom (scope log) group then group.id :: dropped log else dropped log
  | _ :: log => dropped log

/-- The options of a group; those of the root are given. -/
def optionsOf (root : GroupOptions) : Log → Nat → GroupOptions
  | [], _ => root
  | (.begin _ options _, .ok (.group ref)) :: log, id =>
      if ref.id = id then options else optionsOf root log id
  | _ :: log, id => optionsOf root log id

variable (command : Command) (halt : Halt) (log : Log)

@[simp] theorem ids_error : ids ((command, .error halt) :: log) = log.ids := by
  cases command <;> rfl

@[simp] theorem placed_error : placed ((command, .error halt) :: log) = log.placed := by
  cases command <;> rfl

@[simp] theorem dropped_error : dropped ((command, .error halt) :: log) = log.dropped := by
  cases command <;> rfl

@[simp] theorem optionsOf_error (root : GroupOptions) (id : Nat) :
    optionsOf root ((command, .error halt) :: log) id = log.optionsOf root id := by
  cases command <;> rfl

end Log

variable {config : RunConfig} {options : GroupOptions} {serial : Bool} {draft after : Draft}
  {log : Log} {command : Command} {reply : Reply}

theorem pairwise_succ {ids : List Nat} {next : Nat} (ordered : (ids ++ [next]).Pairwise (· < ·)) :
    (ids ++ [next] ++ [next + 1]).Pairwise (· < ·) := by
  refine List.pairwise_append.mpr ⟨ordered, List.pairwise_singleton _ _, ?_⟩
  intro id member
  have below : id ≤ next := by
    rcases List.mem_append.mp member with given | last
    · exact Nat.le_of_lt ((List.pairwise_append.mp ordered).2.2 id given next List.mem_cons_self)
    · exact Nat.le_of_eq (List.mem_singleton.mp last)
  exact List.forall_mem_singleton.mpr (Nat.lt_succ_of_le below)

/-- An id stands for one node. Which groups an invocation lies in can be told by the ids. -/
structure Filed (log : Log) (next : Nat) : Prop where
  ordered : (log.ids ++ [next]).Pairwise (· < ·)
  listed : (log.placed.map Log.Placed.id).Sublist log.ids
  parent : ∀ placed ∈ log.placed, placed.scope.head? = some placed.parent
  inside : ∀ placed ∈ log.placed, ∀ ref ∈ placed.scope, ref.id < placed.id
  around : ∀ placed ∈ log.placed, ∀ ref ∈ log.scope, ref.id < placed.id → ref ∈ placed.scope
  gone : ∀ id ∈ log.dropped, id < next ∧ ∀ ref ∈ log.scope, ref.id ≠ id

namespace Filed

variable {next : Nat}

theorem below (filed : Filed log next) {id : Nat} (given : id ∈ log.ids) : id < next :=
  (List.pairwise_append.mp filed.ordered).2.2 id given next (List.mem_singleton_self _)

theorem placed_below (filed : Filed log next) {placed : Log.Placed} (member : placed ∈ log.placed) :
    placed.id < next :=
  filed.below (filed.listed.subset (List.mem_map_of_mem member))

theorem parent_below (filed : Filed log next) {placed : Log.Placed} (member : placed ∈ log.placed) :
    placed.parent.id < placed.id :=
  filed.inside placed member _ (List.mem_of_mem_head? (filed.parent placed member))

/-- Nothing was declared in a group that does not exist yet. -/
theorem placedIn_new (filed : Filed log next) {group : Nat} (new : next ≤ group) :
    log.placedIn group = [] := by
  unfold Log.placedIn
  rw [List.map_eq_nil_iff, List.filter_eq_nil_iff]
  intro placed member
  have here := filed.placed_below member
  have there := filed.parent_below member
  rw [decide_eq_true_eq]
  omega

/-- Nothing was declared; some groups may have been closed or dropped. -/
theorem left (filed : Filed log next) {log' : Log}
    (scope : log'.scope ⊆ log.scope) (ids : log'.ids = log.ids) (placed : log'.placed = log.placed)
    (gone : ∀ id ∈ log'.dropped, id ∈ log.dropped ∨ id < next ∧ ∀ ref ∈ log'.scope, ref.id ≠ id) :
    Filed log' next := by
  obtain ⟨ordered, listed, parent, inside, around, lost⟩ := filed
  refine ⟨ids ▸ ordered, ids ▸ placed ▸ listed, placed ▸ parent, placed ▸ inside, ?_, ?_⟩
  · rw [placed]
    exact fun placed member ref open' => around placed member ref (scope open')
  · intro id member
    rcases gone id member with known | new
    · exact ⟨(lost id known).1, fun ref open' => (lost id known).2 ref (scope open')⟩
    · exact new

end Filed

/-- The group that begins lies around whatever is declared from now on, and around nothing else. -/
theorem Filed.begins {next level : Nat} {parent : GroupRef} (filed : Filed log next) :
    Filed ((.begin parent options serial, .ok (.group ⟨next, level⟩)) :: log) (next + 1) := by
  refine ⟨pairwise_succ filed.ordered, ?_, filed.parent, filed.inside, ?_, ?_⟩
  · exact filed.listed.trans (List.sublist_append_left _ _)
  · rintro placed member ref (_ | ⟨_, open'⟩) below
    · have := filed.placed_below member
      exact absurd below (by dsimp only; omega)
    · exact filed.around placed member ref open' below
  · intro id lost
    obtain ⟨below, apart⟩ := filed.gone id lost
    refine ⟨Nat.lt_succ_of_lt below, ?_⟩
    rintro ref (_ | ⟨_, open'⟩)
    · exact Nat.ne_of_gt below
    · exact apart ref open'

/-- What is declared gets an id above those of all groups that it lies in. -/
theorem Filed.invokes {next : Nat} {parent : GroupRef} {job : String}
    {params : List (String × ParamValue)} {unchecked : Bool} (filed : Filed log next)
    (inner : log.scope.head? = some parent) (fresh : ∀ ref ∈ log.scope, ref.id < next) :
    Filed ((.invoke parent job params unchecked, .ok (.job next)) :: log) (next + 1) := by
  have every {p : Log.Placed → Prop} (old : ∀ placed ∈ log.placed, p placed)
      (new : p ⟨next, parent, job, log.scope⟩) :
      ∀ placed ∈ log.placed ++ [⟨next, parent, job, log.scope⟩], p placed :=
    List.forall_mem_append.mpr ⟨old, List.forall_mem_singleton.mpr new⟩
  refine ⟨pairwise_succ filed.ordered, ?_, every filed.parent inner, every filed.inside fresh,
    every filed.around fun ref open' _ => open', fun id lost => ?_⟩
  · change (List.map _ (log.placed ++ _)).Sublist _
    rw [List.map_append]
    exact filed.listed.append (List.Sublist.refl _)
  · obtain ⟨below, apart⟩ := filed.gone id lost
    exact ⟨Nat.lt_succ_of_lt below, apart⟩

theorem Filed.performs (filed : Filed log draft.nextId) (tracks : Tracks log draft)
    (performs : Performs draft command reply after) :
    Filed ((command, .ok reply) :: log) after.nextId := by
  cases performs with
  | begins => exact filed.begins
  | closes leaves =>
      rw [nextId_folded]
      exact filed.left List.eraseP_subset rfl rfl fun id => .inl
  | @drops group leaves =>
      have drops := tracks.leaves_iff.mp leaves
      have scope : Log.scope ((.drop group, .ok .done) :: log) = draft.outer.map OpenGroup.ref :=
        (if_pos drops).trans (tracks.erased leaves)
      have dropped : Log.dropped ((.drop group, .ok .done) :: log) = group.id :: log.dropped :=
        if_pos drops
      have inner : draft.innermost.ref.id = group.id := leaves.2
      -- The groups around the dropped one have smaller ids.
      have ranked := tracks.ranked
      rw [tracks.scope_eq] at ranked
      rw [nextId_outside]
      refine filed.left ?_ rfl rfl ?_
      · rw [scope, tracks.scope_eq]
        exact List.subset_cons_self _ _
      · rw [scope, dropped]
        rintro id (_ | ⟨_, known⟩)
        · refine .inr ⟨?_, fun ref outer => inner ▸ Nat.ne_of_lt (ranked.below outer)⟩
          exact inner ▸ tracks.fresh _ (tracks.obtained (tracks.scope_eq ▸ List.mem_cons_self))
        · exact .inl known
  | @keeps group stays =>
      have keeps := fun drops => stays (tracks.leaves_iff.mpr drops)
      have scope : Log.scope ((.drop group, .ok .done) :: log) = log.scope := if_neg keeps
      have dropped : Log.dropped ((.drop group, .ok .done) :: log) = log.dropped := if_neg keeps
      exact filed.left (scope ▸ List.Subset.refl _) rfl rfl fun id known => .inl (dropped ▸ known)
  | @invokes parent job params unchecked admits =>
      have inner : log.scope.head? = some parent := by
        rw [tracks.scope_eq, List.head?_cons, tracks.admitted admits]
      exact filed.invokes inner fun ref open' => tracks.fresh ref (tracks.obtained open')
  | tells => exact filed.left (List.Subset.refl _) rfl rfl fun id => .inl

theorem filed_start : Filed [] 1 := by
  have ordered : ([0] ++ [1] : List Nat).Pairwise (· < ·) := by decide
  exact ⟨ordered, List.nil_sublist _, nofun, nofun, nofun, nofun⟩

theorem Filed.fails {next : Nat} {halt : Halt} (filed : Filed log next) :
    Filed ((command, .error halt) :: log) next := by
  obtain ⟨ordered, listed, parent, inside, around, gone⟩ := filed
  constructor <;> simpa

theorem Session.filed (session : Session config options serial log draft) :
    Filed log draft.nextId :=
  session.keeps (p := fun log draft => Filed log draft.nextId) (fun _ => filed_start)
    (fun session filed => filed.performs session.tracks) Filed.fails

end BuildFlow.Draft
