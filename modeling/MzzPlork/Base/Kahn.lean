import Mathlib.Data.List.Count
import Mathlib.Data.List.Nodup
import Mathlib.Data.List.Perm.Subperm
import Mathlib.Data.Set.Finite.List
import Mathlib.Logic.Relation

/-!
# Kahn's Algorithm

Visiting the nodes of a dependency graph so that a node comes after
everything it depends on.

Every node carries a counter of dependencies not visited yet, and a queue
holds the nodes whose counter has reached zero. Visiting a node lowers the
counters of its dependents and queues those that arrive at zero. The graph is
arbitrary: dependencies may be listed twice, a node may depend on itself, and
cycles are allowed. What the algorithm computes in that generality is the
accessible part of the graph, the nodes below which there is no infinite
descent, and `mem_done_iff` is that statement. A node on a cycle, or above
one, is never queued.

The loop takes an action to perform at each visit. The action cannot influence
the order, so the outcome is the fold of the action over the visiting order
(`loop_snd`), and the order can be studied without it.

The counters are integers because programs decrement them blindly. The
invariant shows that no counter drops below zero, which is why reaching zero
happens once.

## Main definitions

* `Kahn.State`: The queue, the counters and the visited nodes.
* `Kahn.relax`: Lowering the counters of a list of dependents.
* `Kahn.step`: Visiting the node at the head of the queue.
* `Kahn.loop`: Visiting until the queue is empty, with an action.
* `Kahn.Graph`: A graph together with the tables the loop runs on.
* `Kahn.Below`: The dependency relation between nodes.
* `Kahn.Inv`: What holds between two visits.

## Theorems

* `relax_degree`: What a round of decrements does to a counter.
* `relax_queue`: Which nodes a round of decrements queues.
* `exists_fresh`: Which nodes a visit queues.
* `inv_visit`: A visit preserves the invariant.
* `loop_queue`: As many visits as there are nodes empty the queue.
* `mem_done_iff`: Exactly the accessible nodes are visited.
* `exists_cycle`: A node that is not visited is above a cycle.
* `loop_snd`: The loop folds its action over the visiting order.
-/

namespace MzzPlork

namespace Kahn

variable {V σ : Type}

/-- The loop's variables: nodes ready to be visited, the counter of each node,
    and the nodes visited so far in order. -/
structure State (V : Type) where
  queue : List V
  degree : V → Int
  done : List V

section Loop

variable [DecidableEq V]

/-- Lower the counter of every listed node, queueing those that reach zero. -/
def relax (degree : V → Int) (queue : List V) : List V → (V → Int) × List V
  | [] => (degree, queue)
  | w :: ws =>
    let degree' := Function.update degree w (degree w - 1)
    relax degree' (if degree' w = 0 then queue ++ [w] else queue) ws

/-- Visit the node at the head of the queue. -/
def step (dependents : V → List V) (s : State V) : Option (V × State V) :=
  match s.queue with
  | [] => none
  | v :: q =>
    let r := relax s.degree q (dependents v)
    some (v, { queue := r.2, degree := r.1, done := s.done ++ [v] })

/-- Visit nodes until the queue is empty, at most `fuel` of them. -/
def loop (dependents : V → List V) (visit : V → σ → σ) : Nat → State V → σ → State V × σ
  | 0, s, w => (s, w)
  | fuel + 1, s, w =>
    match step dependents s with
    | none => (s, w)
    | some (v, s') => loop dependents visit fuel s' (visit v w)

/-- The action never influences the order: the outcome is its fold over the
    nodes visited. -/
theorem loop_snd (dependents : V → List V) (visit : V → σ → σ) (fuel : Nat) (s : State V)
    (w : σ) : ∃ order, (loop dependents visit fuel s w).1.done = s.done ++ order ∧
      (loop dependents visit fuel s w).2 = order.foldl (fun acc v => visit v acc) w := by
  induction fuel generalizing s w with
  | zero => exact ⟨[], (List.append_nil _).symm, rfl⟩
  | succ n ih =>
      rw [loop]
      cases hq : step dependents s with
      | none => exact ⟨[], (List.append_nil _).symm, rfl⟩
      | some r =>
          rcases r with ⟨v, s'⟩
          rcases ih s' (visit v w) with ⟨order, hdone, hout⟩
          have hs' : s'.done = s.done ++ [v] := by
            rw [step] at hq
            split at hq
            · exact absurd hq (by simp only [reduceCtorEq, not_false_eq_true])
            · simp only [Option.some.injEq, Prod.mk.injEq] at hq
              rw [← hq.2, ← hq.1]
          refine ⟨v :: order, ?_, hout⟩
          rw [hdone, hs', List.append_assoc, List.singleton_append]

theorem relax_degree (ws : List V) (degree : V → Int) (queue : List V) (x : V) :
    (relax degree queue ws).1 x = degree x - ws.count x := by
  induction ws generalizing degree queue with
  | nil => simp only [relax, List.count_nil, Int.natCast_zero, Int.sub_zero]
  | cons w ws ih =>
      rw [relax, ih, List.count_cons]
      by_cases hx : w = x
      -- The counter that is lowered here; the rest of the list takes what is left.
      · subst hx
        simp only [Function.update_self, beq_self_eq_true, if_true, Int.natCast_add]
        omega
      · rw [Function.update_of_ne (Ne.symm hx)]
        simp only [beq_iff_eq, hx, if_false, Int.natCast_add]
        omega

/-- A round of decrements queues the nodes whose counter it exhausts, each
    once, as long as no counter is asked for more than it has. -/
theorem relax_queue (ws : List V) (degree : V → Int) (queue : List V)
    (hle : ∀ x ∈ ws, (ws.count x : Int) ≤ degree x) :
    ∃ fresh, (relax degree queue ws).2 = queue ++ fresh ∧ fresh.Nodup ∧
      ∀ x, x ∈ fresh ↔ x ∈ ws ∧ degree x = ws.count x := by
  induction ws generalizing degree queue with
  | nil =>
      refine ⟨[], (List.append_nil _).symm, List.nodup_nil, fun x => ?_⟩
      simp only [List.not_mem_nil, false_and]
  | cons w ws ih =>
      have hw : ((ws.count w + 1 : Nat) : Int) ≤ degree w := by
        have h := hle w List.mem_cons_self
        rwa [List.count_cons_self] at h
      have hother : ∀ x, x ≠ w → (w :: ws).count x = ws.count x :=
        fun x hx => List.count_cons_of_ne hx.symm
      have hle' : ∀ x ∈ ws, (ws.count x : Int) ≤ Function.update degree w (degree w - 1) x := by
        intro x hx
        by_cases hxw : x = w
        · subst hxw
          rw [Function.update_self]
          omega
        · rw [Function.update_of_ne hxw, ← hother x hxw]
          exact hle x (List.mem_cons_of_mem w hx)
      rw [relax]
      simp only [Function.update_self]
      by_cases hz : degree w - 1 = 0
      · -- `w` is exhausted here, and it does not occur again.
        have hnot : w ∉ ws := by
          intro hmem
          have hpos := List.count_pos_iff.mpr hmem
          omega
        rw [if_pos hz]
        rcases ih _ (queue ++ [w]) hle' with ⟨fresh, hq, hnd, hmem⟩
        refine ⟨w :: fresh, ?_, ?_, fun x => ?_⟩
        · rw [hq, List.append_assoc, List.singleton_append]
        · refine List.nodup_cons.mpr ⟨fun hc => hnot ((hmem w).mp hc).1, hnd⟩
        · by_cases hxw : x = w
          · subst hxw
            rw [List.count_cons_self, List.count_eq_zero_of_not_mem hnot]
            simp only [List.mem_cons_self, true_and, true_iff]
            omega
          · rw [List.mem_cons, List.mem_cons, hmem x, hother x hxw, Function.update_of_ne hxw]
            simp only [hxw, false_or]
      -- `w` is not exhausted yet, so whether it is queued is up to the rest.
      · rw [if_neg hz]
        rcases ih _ queue hle' with ⟨fresh, hq, hnd, hmem⟩
        refine ⟨fresh, hq, hnd, fun x => ?_⟩
        by_cases hxw : x = w
        · subst hxw
          rw [hmem x, Function.update_self, List.count_cons_self]
          constructor
          · rintro ⟨_, heq⟩
            exact ⟨List.mem_cons_self, by omega⟩
          · rintro ⟨_, heq⟩
            refine ⟨List.count_pos_iff.mp (by omega), by omega⟩
        · rw [hmem x, List.mem_cons, hother x hxw, Function.update_of_ne hxw]
          simp only [hxw, false_or]

end Loop

/-- A dependency graph with the two tables the loop runs on. Only dependencies
    between nodes count, and each as often as it is listed. -/
structure Graph (V : Type) [DecidableEq V] where
  nodes : List V
  deps : V → List V
  degree : V → Int
  dependents : V → List V
  nodup : nodes.Nodup
  degree_eq : ∀ v ∈ nodes, degree v = (deps v).countP (· ∈ nodes)
  listed : ∀ d ∈ nodes, ∀ v,
    (dependents d).countP (· = v) = if v ∈ nodes then (deps v).countP (· = d) else 0

section Correctness

variable [DecidableEq V] (G : Graph V)

/-- `d` is a node the node `v` depends on. -/
def Below (d v : V) : Prop := d ∈ G.nodes ∧ v ∈ G.nodes ∧ d ∈ G.deps v

theorem count_dependents (d v : V) (hd : d ∈ G.nodes) :
    (G.dependents d).count v = if v ∈ G.nodes then (G.deps v).count d else 0 :=
  G.listed d hd v

/-- The loop's variables before the first visit. -/
def start : State V where
  queue := G.nodes.filter (fun v => G.degree v = 0)
  degree := G.degree
  done := []

/-- What holds between two visits: a counter is the number of dependencies
    not visited yet, the queue holds the unvisited nodes without any, and a
    visited node has only visited nodes below it. -/
structure Inv (s : State V) : Prop where
  nodup : (s.done ++ s.queue).Nodup
  sub : ∀ v ∈ s.done ++ s.queue, v ∈ G.nodes
  degree : ∀ v ∈ G.nodes,
    s.degree v = (G.deps v).countP (fun d => d ∈ G.nodes ∧ d ∉ s.done)
  ready : ∀ v ∈ G.nodes, v ∉ s.done → (v ∈ s.queue ↔ s.degree v = 0)
  acc : ∀ v ∈ s.done, Acc (Below G) v
  ordered : ∀ l₁ v l₂, s.done = l₁ ++ v :: l₂ → ∀ d, Below G d v → d ∈ l₁

theorem inv_start : Inv G (start G) where
  nodup := by
    rw [start, List.nil_append]
    exact G.nodup.filter _
  sub := fun v hv => by
    rw [start, List.nil_append] at hv
    exact List.mem_of_mem_filter hv
  degree := fun v hv => by
    simp only [start, List.not_mem_nil, not_false_eq_true, and_true]
    exact G.degree_eq v hv
  ready := fun v hv _ => by
    simp only [start, List.mem_filter, hv, true_and, decide_eq_true_eq]
  acc := fun v hv => absurd hv List.not_mem_nil
  ordered := fun l₁ v l₂ h => by
    rw [start] at h
    exact absurd h.symm (by simp only [List.append_eq_nil_iff, reduceCtorEq, and_false,
      not_false_eq_true])

/-- Visiting `v` takes its occurrences off the count of what is left. -/
theorem countP_visit (ds done : List V) (v : V) (hv : v ∈ G.nodes) (hd : v ∉ done) :
    ds.countP (fun d => d ∈ G.nodes ∧ d ∉ done)
      = ds.countP (fun d => d ∈ G.nodes ∧ d ∉ done ++ [v]) + ds.count v := by
  induction ds with
  | nil => rfl
  | cons d ds ih =>
      rw [List.countP_cons, List.countP_cons, List.count_cons, ih]
      by_cases hdv : d = v
      · subst hdv
        simp only [hv, hd, not_false_eq_true, and_self, decide_true, if_true, List.mem_append,
          List.mem_singleton, or_true, not_true_eq_false, and_false, decide_false,
          Bool.false_eq_true, if_false, beq_self_eq_true]
        omega
      · simp only [List.mem_append, List.mem_singleton, hdv, or_false, beq_iff_eq, if_false]
        omega

theorem countP_eq_zero_iff (s : State V) (hinv : Inv G s) (v : V) (hv : v ∈ G.nodes) :
    s.degree v = 0 ↔ ∀ d, Below G d v → d ∈ s.done := by
  rw [hinv.degree v hv, Int.natCast_eq_zero, List.countP_eq_zero]
  constructor
  · intro h d hd
    by_contra hnot
    exact h d hd.2.2 (decide_eq_true ⟨hd.1, hnot⟩)
  · intro h d hd hc
    have hc := of_decide_eq_true hc
    exact hc.2 (h d ⟨hc.1, hv, hd⟩)

section Visit

variable (s : State V) (u : V) (q : List V) (hinv : Inv G s) (hq : s.queue = u :: q)

include hinv hq

theorem mem_nodes_head : u ∈ G.nodes :=
  hinv.sub u (by rw [hq]; exact List.mem_append_right s.done List.mem_cons_self)

theorem head_not_mem_done : u ∉ s.done := by
  intro hc
  have hnd := hinv.nodup
  rw [hq, List.nodup_append] at hnd
  exact hnd.2.2 u hc u List.mem_cons_self rfl

/-- Everything below the node that is visited has been visited before it. -/
theorem below_head (d : V) (hd : Below G d u) : d ∈ s.done := by
  have hu := mem_nodes_head G s u q hinv hq
  refine (countP_eq_zero_iff G s hinv u hu).mp ?_ d hd
  exact (hinv.ready u hu (head_not_mem_done G s u q hinv hq)).mp (by
    rw [hq]; exact List.mem_cons_self)

theorem mem_nodes_dependents (w : V) (hw : w ∈ G.dependents u) : w ∈ G.nodes := by
  by_contra hnot
  have hpos := List.count_pos_iff.mpr hw
  rw [count_dependents G u w (mem_nodes_head G s u q hinv hq), if_neg hnot] at hpos
  omega

/-- The counters after the visit, and the bound that keeps them from dropping
    below zero. -/
theorem degree_visit (w : V) (hw : w ∈ G.nodes) : s.degree w
    = ((G.deps w).countP (fun d => d ∈ G.nodes ∧ d ∉ s.done ++ [u]) : Nat)
      + ((G.dependents u).count w : Nat) := by
  have hu := mem_nodes_head G s u q hinv hq
  rw [hinv.degree w hw, countP_visit G (G.deps w) s.done u hu
    (head_not_mem_done G s u q hinv hq), count_dependents G u w hu, if_pos hw, Int.natCast_add]

theorem degree_relax (w : V) (hw : w ∈ G.nodes) : (relax s.degree q (G.dependents u)).1 w
    = (G.deps w).countP (fun d => d ∈ G.nodes ∧ d ∉ s.done ++ [u]) := by
  have hc := degree_visit G s u q hinv hq w hw
  rw [relax_degree]
  omega

/-- The nodes the visit queues: those it exhausts the counter of, which have
    neither been visited nor queued before. -/
theorem exists_fresh : ∃ fresh, (relax s.degree q (G.dependents u)).2 = q ++ fresh ∧
    fresh.Nodup ∧ (∀ w, w ∈ fresh ↔ w ∈ G.dependents u ∧ s.degree w = (G.dependents u).count w) ∧
    ∀ w ∈ fresh, w ∉ s.done ∧ w ∉ u :: q := by
  have hu := mem_nodes_head G s u q hinv hq
  rcases relax_queue (G.dependents u) s.degree q (fun w hw => by
    have h := degree_visit G s u q hinv hq w (mem_nodes_dependents G s u q hinv hq w hw)
    omega) with ⟨fresh, hfq, hfnd, hfmem⟩
  refine ⟨fresh, hfq, hfnd, hfmem, fun w hw => ?_⟩
  have hmem := (hfmem w).mp hw
  have hpos := List.count_pos_iff.mpr hmem.1
  have hwn := mem_nodes_dependents G s u q hinv hq w hmem.1
  have hwd : w ∉ s.done := by
    intro hc
    -- All dependencies of a visited node are visited, and `u` is not.
    rcases List.append_of_mem hc with ⟨l₁, l₂, hsplit⟩
    have hdep : u ∈ G.deps w := by
      rw [count_dependents G u w hu, if_pos hwn] at hpos
      exact List.count_pos_iff.mp hpos
    have hul := hinv.ordered l₁ w l₂ hsplit u ⟨hu, hwn, hdep⟩
    exact head_not_mem_done G s u q hinv hq (by rw [hsplit]; exact List.mem_append_left _ hul)
  -- The counter of a queued node is zero, and this one still waits for `u`.
  refine ⟨hwd, fun hc => ?_⟩
  have hz := (hinv.ready w hwn hwd).mp (by rw [hq]; exact hc)
  omega

/-- A node is queued behind the visit exactly when its counter is at zero. -/
theorem ready_visit (w : V) (hw : w ∈ G.nodes) (hwd : w ∉ s.done ++ [u]) :
    w ∈ (relax s.degree q (G.dependents u)).2
      ↔ (relax s.degree q (G.dependents u)).1 w = 0 := by
  rcases exists_fresh G s u q hinv hq with ⟨fresh, hfq, _, hfmem, _⟩
  have hc := degree_visit G s u q hinv hq w hw
  have hwd' : w ∉ s.done ∧ w ≠ u := by
    simpa only [List.mem_append, List.mem_singleton, not_or] using hwd
  have hr := hinv.ready w hw hwd'.1
  rw [hq, List.mem_cons] at hr
  rw [hfq, List.mem_append, hfmem w, relax_degree]
  constructor
  · rintro (hwq | ⟨_, heq⟩)
    · have hz := hr.mp (Or.inr hwq)
      omega
    · omega
  · intro hz
    by_cases hzero : s.degree w = 0
    · exact Or.inl ((hr.mpr hzero).resolve_left hwd'.2)
    · exact Or.inr ⟨List.count_pos_iff.mp (by omega), by omega⟩

/-- The node visited last has all its dependencies in front of it. -/
theorem ordered_visit (l₁ : List V) (w : V) (l₂ : List V) (hsplit : s.done ++ [u] = l₁ ++ w :: l₂)
    (d : V) (hd : Below G d w) : d ∈ l₁ := by
  rcases List.eq_nil_or_concat l₂ with rfl | ⟨l₃, z, rfl⟩
  · have hinj := List.append_inj' hsplit rfl
    rw [← List.singleton_inj.mp hinj.2] at hd
    rw [← hinj.1]
    exact below_head G s u q hinv hq d hd
  · rw [List.concat_eq_append, ← List.cons_append, ← List.append_assoc] at hsplit
    exact hinv.ordered l₁ w l₃ (List.append_inj' hsplit rfl).1 d hd

/-- A visit preserves the invariant. -/
theorem inv_visit : Inv G ⟨(relax s.degree q (G.dependents u)).2,
    (relax s.degree q (G.dependents u)).1, s.done ++ [u]⟩ := by
  rcases exists_fresh G s u q hinv hq with ⟨fresh, hfq, hfnd, hfmem, hfresh⟩
  have hqueue : s.done ++ [u] ++ (relax s.degree q (G.dependents u)).2
      = s.done ++ s.queue ++ fresh := by
    rw [hfq, hq, List.append_assoc, ← List.append_assoc [u] q fresh, List.singleton_append,
      ← List.append_assoc]
  constructor
  · change (s.done ++ [u] ++ (relax s.degree q (G.dependents u)).2).Nodup
    rw [hqueue]
    refine List.nodup_append.mpr ⟨hinv.nodup, hfnd, fun a ha b hb hab => ?_⟩
    rw [hq, hab] at ha
    exact (List.mem_append.mp ha).elim (hfresh b hb).1 (hfresh b hb).2
  · intro w hw
    change w ∈ s.done ++ [u] ++ (relax s.degree q (G.dependents u)).2 at hw
    rw [hqueue] at hw
    rcases List.mem_append.mp hw with hw | hw
    · exact hinv.sub w hw
    · exact mem_nodes_dependents G s u q hinv hq w ((hfmem w).mp hw).1
  · exact degree_relax G s u q hinv hq
  · exact ready_visit G s u q hinv hq
  · intro w hw
    rcases List.mem_append.mp hw with hw | hw
    · exact hinv.acc w hw
    · rw [List.mem_singleton.mp hw]
      exact Acc.intro u (fun d hd => hinv.acc d (below_head G s u q hinv hq d hd))
  · exact ordered_visit G s u q hinv hq

end Visit

theorem inv_step (s s' : State V) (v : V) (hinv : Inv G s)
    (hstep : step G.dependents s = some (v, s')) : Inv G s' := by
  rw [step] at hstep
  split at hstep
  · exact absurd hstep (by simp only [reduceCtorEq, not_false_eq_true])
  · rename_i u q hq
    rw [← (Prod.mk.inj (Option.some.inj hstep)).2]
    exact inv_visit G s u q hinv hq

/-- No more than all nodes can be visited. -/
theorem length_done_le (s : State V) (hinv : Inv G s) :
    s.done.length + s.queue.length ≤ G.nodes.length := by
  rw [← List.length_append]
  exact (List.subperm_of_subset hinv.nodup (fun v hv => hinv.sub v hv)).length_le

/-- The loop preserves the invariant, and with a visit for every node left it
    empties the queue. -/
theorem inv_loop (visit : V → σ → σ) (fuel : Nat) (s : State V) (w : σ) (hinv : Inv G s)
    (hfuel : G.nodes.length ≤ s.done.length + fuel) :
    Inv G (loop G.dependents visit fuel s w).1 ∧
      (loop G.dependents visit fuel s w).1.queue = [] := by
  induction fuel generalizing s w with
  | zero =>
      -- Without fuel all nodes are visited, which leaves none for the queue.
      have hlen := length_done_le G s hinv
      have hzero : s.queue.length = 0 := by omega
      exact ⟨hinv, List.length_eq_zero_iff.mp hzero⟩
  | succ n ih =>
      rw [loop]
      cases hq : step G.dependents s with
      | none =>
          refine ⟨hinv, ?_⟩
          rw [step] at hq
          split at hq
          · assumption
          · exact absurd hq (by simp only [reduceCtorEq, not_false_eq_true])
      | some r =>
          rcases r with ⟨v, s'⟩
          refine ih s' (visit v w) (inv_step G s s' v hinv hq) ?_
          rw [step] at hq
          split at hq
          · exact absurd hq (by simp only [reduceCtorEq, not_false_eq_true])
          · simp only [Option.some.injEq, Prod.mk.injEq] at hq
            rw [← hq.2, List.length_append, List.length_singleton]
            omega

/-- As many visits as there are nodes empty the queue. -/
theorem loop_queue (visit : V → σ → σ) (w : σ) :
    (loop G.dependents visit G.nodes.length (start G) w).1.queue = [] :=
  (inv_loop G visit G.nodes.length (start G) w (inv_start G) (by omega)).2

/-- Exactly the nodes without an infinite descent below them are visited. -/
theorem mem_done_iff (visit : V → σ → σ) (w : σ) (v : V) :
    v ∈ (loop G.dependents visit G.nodes.length (start G) w).1.done
      ↔ v ∈ G.nodes ∧ Acc (Below G) v := by
  have hinv := (inv_loop G visit G.nodes.length (start G) w (inv_start G) (by omega)).1
  have hq := loop_queue G visit w
  constructor
  · intro hv
    exact ⟨hinv.sub v (List.mem_append_left _ hv), hinv.acc v hv⟩
  · rintro ⟨hv, hacc⟩
    induction hacc with
    | intro v _ ih =>
        by_contra hnot
        -- With nothing queued, an unvisited node has an unvisited node below it.
        have hz := (countP_eq_zero_iff G _ hinv v hv).mpr (fun d hd => ih d hd hd.1)
        have hmem := (hinv.ready v hv hnot).mpr hz
        rw [hq] at hmem
        exact List.not_mem_nil hmem

open Relation in
/-- In a finite graph a node with an infinite descent below it is above a
    cycle. -/
theorem exists_cycle (v : V) (hacc : ¬ Acc (Below G) v) :
    ∃ j, ReflTransGen (fun a d => Below G d a) v j ∧ TransGen (fun a d => Below G d a) j j := by
  by_contra hnone
  -- The nodes below `v`, ordered by paths: finite, and without a cycle a strict order.
  let S := {w // w ∈ v :: G.nodes ∧ ReflTransGen (fun a d => Below G d a) v w}
  let path : S → S → Prop := fun d a => TransGen (fun a d => Below G d a) a.1 d.1
  have hfin : Finite S :=
    Set.Finite.subset (List.finite_toSet (v :: G.nodes)) (fun w hw => hw.1)
  have htrans : IsTrans S path := ⟨fun a b c hab hbc => TransGen.trans hbc hab⟩
  have hirrefl : Std.Irrefl path := ⟨fun a ha => hnone ⟨a.1, a.2.2, ha⟩⟩
  have hwf : WellFounded path := Finite.wellFounded_of_trans_of_irrefl path
  have hall : ∀ a : S, Acc (Below G) a.1 := by
    intro a
    induction a using hwf.induction with
    | h a ih =>
        refine Acc.intro a.1 (fun d hd => ?_)
        have hreach : ReflTransGen (fun a d => Below G d a) v d := a.2.2.tail hd
        exact ih ⟨d, List.mem_cons_of_mem v hd.1, hreach⟩ (TransGen.single hd)
  exact hacc (hall ⟨v, List.mem_cons_self, ReflTransGen.refl⟩)

end Correctness

end Kahn

end MzzPlork
