import Mathlib.Data.Finset.Card
import Mathlib.Data.Finset.Dedup
import Mathlib.Logic.Relation
import Mathlib.Tactic.Common

namespace AgentLibOS.Library.CycleCheck

variable {α : Type*}

/-- The keys of a dictionary after `setdefault` of `a`. -/
def withKey [DecidableEq α] (keys : List α) (a : α) : List α :=
  if a ∈ keys then keys else keys ++ [a]

theorem mem_withKey [DecidableEq α] {keys : List α} {a x : α} :
    x ∈ withKey keys a ↔ x ∈ keys ∨ x = a := by
  unfold withKey
  by_cases present : a ∈ keys
  · rw [if_pos present]
    exact ⟨Or.inl, fun h => h.elim id fun same => same ▸ present⟩
  · rw [if_neg present, List.mem_append, List.mem_singleton]

theorem nodup_snoc {keys : List α} {a : α} (nodup : keys.Nodup) (absent : a ∉ keys) :
    (keys ++ [a]).Nodup := by
  refine List.nodup_append.mpr ⟨nodup, List.nodup_singleton a, ?_⟩
  intro x inside y here same
  rw [List.mem_singleton] at here
  exact absent (here ▸ same ▸ inside)

theorem withKey_nodup [DecidableEq α] {keys : List α} {a : α} (nodup : keys.Nodup) :
    (withKey keys a).Nodup := by
  unfold withKey
  split_ifs with present
  · exact nodup
  · exact nodup_snoc nodup present

/-- A dictionary from nodes to the sets of their adjacent nodes. -/
structure Adjacency (α : Type*) where
  keys : List α
  next : α → List α
  keys_nodup : keys.Nodup
  next_nodup : ∀ a, (next a).Nodup
  known : ∀ a b, b ∈ next a → a ∈ keys

namespace Adjacency

def Adjacent (adjacency : Adjacency α) (a b : α) : Prop := b ∈ adjacency.next a

def single (a : α) : Adjacency α where
  keys := [a]
  next := fun _ => []
  keys_nodup := List.nodup_singleton a
  next_nodup := fun _ => List.nodup_nil
  known := fun _ _ inside => nomatch inside

@[simp] theorem adjacent_single {a x y : α} : ¬ (single a).Adjacent x y := List.not_mem_nil

variable [DecidableEq α]

/-- `adjacency.setdefault(a, set())`. -/
def touch (adjacency : Adjacency α) (a : α) : Adjacency α where
  keys := withKey adjacency.keys a
  next := adjacency.next
  keys_nodup := withKey_nodup adjacency.keys_nodup
  next_nodup := adjacency.next_nodup
  known := fun x b inside => mem_withKey.mpr (Or.inl (adjacency.known x b inside))

/-- `adjacency.setdefault(a, set()).add(b)`. -/
def link (adjacency : Adjacency α) (a b : α) : Adjacency α where
  keys := withKey adjacency.keys a
  next := fun x => if x = a then (adjacency.next a).insert b else adjacency.next x
  keys_nodup := withKey_nodup adjacency.keys_nodup
  next_nodup := fun x => by
    split_ifs
    · exact (adjacency.next_nodup a).insert
    · exact adjacency.next_nodup x
  known := fun x y inside => by
    by_cases same : x = a
    · exact mem_withKey.mpr (Or.inr same)
    · rw [if_neg same] at inside
      exact mem_withKey.mpr (Or.inl (adjacency.known x y inside))

@[simp] theorem adjacent_touch {adjacency : Adjacency α} {a x y : α} :
    (adjacency.touch a).Adjacent x y ↔ adjacency.Adjacent x y := Iff.rfl

@[simp] theorem adjacent_link {adjacency : Adjacency α} {a b x y : α} :
    (adjacency.link a b).Adjacent x y ↔ adjacency.Adjacent x y ∨ (x = a ∧ y = b) := by
  unfold Adjacent link
  by_cases same : x = a
  · subst same
    simp [List.mem_insert_iff, or_comm]
  · simp [same]

end Adjacency

variable [DecidableEq α]

/-! ## Counting down the indegrees -/

/-- `indegree`: the nodes in the order of their entries, and their degrees. -/
structure Degrees (α : Type*) where
  nodes : List α
  degree : α → Int

/-- `indegree.setdefault(b, 0); indegree[b] += 1`. -/
def Degrees.raise (degrees : Degrees α) (b : α) : Degrees α where
  nodes := withKey degrees.nodes b
  degree := fun x => if x = b then degrees.degree b + 1 else degrees.degree x

def indegrees (adjacency : Adjacency α) : Degrees α :=
  (adjacency.keys.flatMap adjacency.next).foldl Degrees.raise ⟨adjacency.keys, fun _ => 0⟩

/-- `indegree[b] -= 1`, and `b` is ready once no edge into it is left. -/
def lower (state : (α → Int) × List α) (b : α) : (α → Int) × List α :=
  (fun x => if x = b then state.1 b - 1 else state.1 x,
    if state.1 b - 1 = 0 then state.2 ++ [b] else state.2)

/-- The number of nodes that become ready. -/
def drain (adjacency : Adjacency α) : Nat → (α → Int) → List α → Nat
  | 0, _, _ => 0
  | _ + 1, _, [] => 0
  | fuel + 1, degree, node :: ready =>
      let lowered := (adjacency.next node).foldl lower (degree, ready)
      1 + drain adjacency fuel lowered.1 lowered.2

def hasCycle (adjacency : Adjacency α) : Bool :=
  let indegree := indegrees adjacency
  drain adjacency indegree.nodes.length indegree.degree
    (indegree.nodes.filter (indegree.degree · = 0)) != indegree.nodes.length

/-! ## The countdown -/

/-- The nodes with an edge to `v` that are not yet visited. -/
def waiting (adjacency : Adjacency α) (visited : List α) (v : α) : Finset α :=
  adjacency.keys.toFinset.filter fun u => v ∈ adjacency.next u ∧ u ∉ visited

theorem mem_waiting {adjacency : Adjacency α} {visited : List α} {u v : α} :
    u ∈ waiting adjacency visited v ↔ adjacency.Adjacent u v ∧ u ∉ visited := by
  simp only [waiting, Finset.mem_filter, List.mem_toFinset]
  exact ⟨fun h => h.2, fun h => ⟨adjacency.known u v h.1, h⟩⟩

theorem card_waiting (adjacency : Adjacency α) {visited : List α} {node : α}
    (fresh : node ∉ visited) (v : α) :
    (waiting adjacency visited v).card = (waiting adjacency (visited ++ [node]) v).card +
      if v ∈ adjacency.next node then 1 else 0 := by
  by_cases edge : v ∈ adjacency.next node
  · have split : waiting adjacency visited v =
        insert node (waiting adjacency (visited ++ [node]) v) := by
      ext u
      simp only [Finset.mem_insert, mem_waiting, List.mem_append, List.mem_singleton, not_or]
      constructor
      · intro h
        by_cases same : u = node
        · exact Or.inl same
        · exact Or.inr ⟨h.1, h.2, same⟩
      · rintro (rfl | h)
        · exact ⟨edge, fresh⟩
        · exact ⟨h.1, h.2.1⟩
    rw [split, Finset.card_insert_of_notMem (by simp [mem_waiting]), if_pos edge]
  · have same : waiting adjacency visited v = waiting adjacency (visited ++ [node]) v := by
      ext u
      simp only [mem_waiting, List.mem_append, List.mem_singleton, not_or]
      refine and_congr_right fun here => ⟨fun h => ⟨h, ?_⟩, fun h => h.1⟩
      rintro rfl
      exact edge here
    rw [same, if_neg edge, Nat.add_zero]

/-- The loop invariant, before the nodes of `left` have been lowered. -/
structure Counted (adjacency : Adjacency α) (nodes visited left : List α) (degree : α → Int)
    (ready : List α) : Prop where
  nodup : (visited ++ ready).Nodup
  inside : ∀ v ∈ visited ++ ready, v ∈ nodes
  degree_eq : ∀ v, degree v =
    (waiting adjacency visited v).card + if v ∈ left then (1 : Int) else 0
  ready_iff : ∀ v ∈ nodes, degree v = 0 ↔ v ∈ visited ++ ready

variable {adjacency : Adjacency α} {nodes visited ready : List α} {degree : α → Int}

theorem Counted.lower {b : α} {left : List α}
    (counted : Counted adjacency nodes visited (b :: left) degree ready) (fresh : b ∉ left)
    (known : b ∈ nodes) :
    Counted adjacency nodes visited left (lower (degree, ready) b).1 (lower (degree, ready) b).2 := by
  have was := counted.degree_eq b
  rw [if_pos List.mem_cons_self] at was
  have absent : b ∉ visited ++ ready := by
    intro listed
    have := (counted.ready_iff b known).mpr listed
    omega
  have lowered : ∀ v, (CycleCheck.lower (degree, ready) b).1 v =
      (waiting adjacency visited v).card + if v ∈ left then (1 : Int) else 0 := by
    intro v
    by_cases same : v = b
    · subst same
      simp only [CycleCheck.lower, if_true, fresh, if_false]
      omega
    · have := counted.degree_eq v
      simp only [List.mem_cons, same, false_or] at this
      simpa only [CycleCheck.lower, same, if_false] using this
  by_cases zero : degree b - 1 = 0
  · have pushed : (CycleCheck.lower (degree, ready) b).2 = ready ++ [b] := if_pos zero
    rw [pushed]
    refine ⟨?_, ?_, lowered, ?_⟩
    · rw [← List.append_assoc]
      exact nodup_snoc counted.nodup absent
    · intro v inside
      rw [← List.append_assoc, List.mem_append, List.mem_singleton] at inside
      rcases inside with before | rfl
      · exact counted.inside v before
      · exact known
    · intro v listed
      rw [← List.append_assoc, List.mem_append, List.mem_singleton]
      by_cases same : v = b
      · subst same
        simp [CycleCheck.lower, zero]
      · simpa [CycleCheck.lower, same] using counted.ready_iff v listed
  · have kept : (CycleCheck.lower (degree, ready) b).2 = ready := if_neg zero
    rw [kept]
    refine ⟨counted.nodup, counted.inside, lowered, ?_⟩
    intro v listed
    by_cases same : v = b
    · subst same
      simp only [CycleCheck.lower, if_true]
      exact iff_of_false zero absent
    · simpa [CycleCheck.lower, same] using counted.ready_iff v listed

theorem Counted.lower_all {left : List α}
    (counted : Counted adjacency nodes visited left degree ready) (nodup : left.Nodup)
    (known : ∀ b ∈ left, b ∈ nodes) :
    Counted adjacency nodes visited [] (left.foldl CycleCheck.lower (degree, ready)).1
      (left.foldl CycleCheck.lower (degree, ready)).2 := by
  induction left generalizing degree ready with
  | nil => exact counted
  | cons b left ih =>
      have here := counted.lower (List.nodup_cons.mp nodup).1 (known b List.mem_cons_self)
      exact ih here (List.nodup_cons.mp nodup).2 fun b' inside =>
        known b' (List.mem_cons_of_mem b inside)

theorem Counted.visit {node : α}
    (counted : Counted adjacency nodes visited [] degree (node :: ready))
    (known : ∀ a b, adjacency.Adjacent a b → b ∈ nodes) :
    Counted adjacency nodes (visited ++ [node]) []
      ((adjacency.next node).foldl CycleCheck.lower (degree, ready)).1
      ((adjacency.next node).foldl CycleCheck.lower (degree, ready)).2 := by
  have fresh : node ∉ visited := fun seen =>
    (List.nodup_append.mp counted.nodup).2.2 node seen node List.mem_cons_self rfl
  have same : visited ++ [node] ++ ready = visited ++ node :: ready := by simp
  have popped : Counted adjacency nodes (visited ++ [node]) (adjacency.next node) degree ready := by
    refine ⟨same ▸ counted.nodup, same ▸ counted.inside, fun v => ?_, same ▸ counted.ready_iff⟩
    rw [counted.degree_eq v, card_waiting adjacency fresh v]
    by_cases edge : v ∈ adjacency.next node <;> simp [edge]
  exact popped.lower_all (adjacency.next_nodup node) fun b inside => known node b inside

/-- The nodes that come up for a visit have only visited predecessors. -/
theorem Counted.ready_clear {v : α} (counted : Counted adjacency nodes visited [] degree ready)
    (listed : v ∈ ready) {u : α} (edge : adjacency.Adjacent u v) : u ∈ visited := by
  by_contra unseen
  have zero := (counted.ready_iff v (counted.inside v (List.mem_append_right _ listed))).mpr
    (List.mem_append_right _ listed)
  have member : u ∈ waiting adjacency visited v := mem_waiting.mpr ⟨edge, unseen⟩
  have positive := Finset.card_pos.mpr ⟨u, member⟩
  have := counted.degree_eq v
  simp at this
  omega

omit [DecidableEq α] in
theorem length_lt_of_missing {v : α} (nodup : visited.Nodup) (inside : ∀ u ∈ visited, u ∈ nodes)
    (known : v ∈ nodes) (missing : v ∉ visited) : visited.length < nodes.length := by
  have grown : (v :: visited).Subperm nodes := by
    refine List.subperm_of_subset (List.nodup_cons.mpr ⟨missing, nodup⟩) fun u listed => ?_
    rcases List.mem_cons.mp listed with rfl | before
    · exact known
    · exact inside u before
  exact grown.length_le

/-- A node each of whose kind has a predecessor of its kind is never visited. -/
theorem Counted.drain_lt (kind : α → Prop) {v : α} (fuel : Nat)
    (counted : Counted adjacency nodes visited [] degree ready)
    (known : ∀ a b, adjacency.Adjacent a b → b ∈ nodes) (listed : v ∈ nodes) (bad : kind v)
    (closed : ∀ b, kind b → ∃ a, kind a ∧ adjacency.Adjacent a b)
    (unseen : ∀ u ∈ visited, ¬ kind u) :
    visited.length + drain adjacency fuel degree ready < nodes.length := by
  have short : visited.length < nodes.length := by
    refine length_lt_of_missing (List.nodup_append.mp counted.nodup).1
      (fun u inside => counted.inside u (List.mem_append_left _ inside)) listed fun seen => ?_
    exact unseen v seen bad
  induction fuel generalizing visited degree ready with
  | zero => exact short
  | succ fuel ih =>
      cases ready with
      | nil => exact short
      | cons node ready =>
          have clear : ¬ kind node := by
            intro bad'
            obtain ⟨a, worse, edge⟩ := closed node bad'
            exact unseen a (counted.ready_clear List.mem_cons_self edge) worse
          have next := counted.visit known
          have unseen' : ∀ u ∈ visited ++ [node], ¬ kind u := by
            intro u seen
            rcases List.mem_append.mp seen with before | here
            · exact unseen u before
            · rw [List.mem_singleton.mp here]
              exact clear
          have := ih next unseen' (by
            refine length_lt_of_missing (List.nodup_append.mp next.nodup).1
              (fun u inside => next.inside u (List.mem_append_left _ inside)) listed fun seen => ?_
            exact unseen' v seen bad)
          rw [List.length_append, List.length_singleton] at this
          simp only [drain]
          omega

/-- One round for each node empties the queue, so more rounds would visit nothing else. -/
theorem Counted.drain_more (fuel extra : Nat)
    (counted : Counted adjacency nodes visited [] degree ready)
    (known : ∀ a b, adjacency.Adjacent a b → b ∈ nodes)
    (enough : nodes.length ≤ visited.length + fuel) :
    drain adjacency (fuel + extra) degree ready = drain adjacency fuel degree ready := by
  induction fuel generalizing visited degree ready with
  | zero =>
      have within := (List.subperm_of_subset counted.nodup counted.inside).length_le
      rw [List.length_append] at within
      have idle : ready = [] := List.eq_nil_of_length_eq_zero (by omega)
      subst idle
      cases extra <;> rfl
  | succ fuel ih =>
      rw [Nat.add_right_comm]
      cases ready with
      | nil => rfl
      | cons node ready =>
          have next := counted.visit known
          simp only [drain]
          rw [ih next (by rw [List.length_append, List.length_singleton]; omega)]

/-! ## The first count -/

theorem raise_all (inputs : List α) (degrees : Degrees α) :
    (inputs.foldl Degrees.raise degrees).degree =
      fun v => degrees.degree v + (inputs.count v : Int) := by
  induction inputs generalizing degrees with
  | nil => simp
  | cons b inputs ih =>
      funext v
      rw [List.foldl_cons, ih, List.count_cons]
      by_cases same : v = b
      · subst same
        simp [Degrees.raise]
        omega
      · have other : ¬ b = v := fun h => same h.symm
        simp [Degrees.raise, same, other]

theorem raise_all_nodes (inputs : List α) (degrees : Degrees α) :
    (degrees.nodes.Nodup → (inputs.foldl Degrees.raise degrees).nodes.Nodup) ∧
      ∀ v, v ∈ (inputs.foldl Degrees.raise degrees).nodes ↔ v ∈ degrees.nodes ∨ v ∈ inputs := by
  induction inputs generalizing degrees with
  | nil => simp
  | cons b inputs ih =>
      constructor
      · intro nodup
        exact (ih (degrees.raise b)).1 (withKey_nodup nodup)
      · intro v
        rw [List.foldl_cons, (ih (degrees.raise b)).2 v, Degrees.raise, mem_withKey, List.mem_cons,
          or_assoc]

theorem count_flatMap {keys : List α} {next : α → List α} (nodup : keys.Nodup)
    (each : ∀ a, (next a).Nodup) (v : α) :
    (keys.flatMap next).count v = (keys.toFinset.filter fun u => v ∈ next u).card := by
  induction keys with
  | nil => rfl
  | cons a keys ih =>
      obtain ⟨fresh, rest⟩ := List.nodup_cons.mp nodup
      rw [List.flatMap_cons, List.count_append, ih rest, List.toFinset_cons, Finset.filter_insert,
        (each a).count]
      by_cases edge : v ∈ next a
      · rw [if_pos edge, if_pos edge, Finset.card_insert_of_notMem (by simp [fresh]), Nat.add_comm]
      · rw [if_neg edge, if_neg edge, Nat.zero_add]

theorem counted_indegrees (adjacency : Adjacency α) :
    Counted adjacency (indegrees adjacency).nodes [] [] (indegrees adjacency).degree
      ((indegrees adjacency).nodes.filter ((indegrees adjacency).degree · = 0)) := by
  refine ⟨?_, ?_, ?_, ?_⟩
  · exact ((raise_all_nodes _ _).1 adjacency.keys_nodup).filter _
  · intro v inside
    exact (List.mem_filter.mp inside).1
  · intro v
    have counts := count_flatMap adjacency.keys_nodup adjacency.next_nodup v
    simp [indegrees, raise_all, counts, waiting]
  · intro v listed
    simp [listed]

theorem mem_indegrees {v : α} : v ∈ (indegrees adjacency).nodes ↔
    v ∈ adjacency.keys ∨ ∃ u, adjacency.Adjacent u v := by
  unfold indegrees
  rw [(raise_all_nodes _ _).2 v, List.mem_flatMap]
  refine or_congr_right ⟨fun ⟨u, _, edge⟩ => ⟨u, edge⟩, fun ⟨u, edge⟩ => ?_⟩
  exact ⟨u, adjacency.known u v edge, edge⟩

theorem drain_indegrees (adjacency : Adjacency α) (extra : Nat) :
    drain adjacency ((indegrees adjacency).nodes.length + extra) (indegrees adjacency).degree
        ((indegrees adjacency).nodes.filter ((indegrees adjacency).degree · = 0)) =
      drain adjacency (indegrees adjacency).nodes.length (indegrees adjacency).degree
        ((indegrees adjacency).nodes.filter ((indegrees adjacency).degree · = 0)) :=
  (counted_indegrees adjacency).drain_more _ extra
    (fun a _ edge => mem_indegrees.mpr (Or.inr ⟨a, edge⟩)) (Nat.le_add_left _ _)

/-- A graph that passes the check has no cycle. -/
theorem acyclic_of_hasCycle (passed : hasCycle adjacency = false) (v : α) :
    ¬ Relation.TransGen adjacency.Adjacent v v := by
  intro cycle
  have edge : ∃ u, adjacency.Adjacent u v := by
    obtain ⟨u, -, last⟩ := Relation.TransGen.tail'_iff.mp cycle
    exact ⟨u, last⟩
  have short := (counted_indegrees adjacency).drain_lt
    (fun b => Relation.TransGen adjacency.Adjacent b b) (indegrees adjacency).nodes.length
    (fun a b h => mem_indegrees.mpr (Or.inr ⟨a, h⟩)) (mem_indegrees.mpr (Or.inr edge)) cycle
    (fun b around => by
      obtain ⟨a, path, last⟩ := Relation.TransGen.tail'_iff.mp around
      exact ⟨a, Relation.TransGen.head' last path, last⟩)
    (fun u seen => by cases seen)
  simp only [hasCycle, bne_eq_false_iff_eq] at passed
  rw [passed] at short
  simp at short

end AgentLibOS.Library.CycleCheck
