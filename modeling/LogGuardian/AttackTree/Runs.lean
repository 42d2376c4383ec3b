import LogGuardian.AttackTree.Masking
import LogGuardian.Lib.Machine

/-!
# Runs over the table of attack trees

What a table holds after any list of submissions and collections, said by the submissions alone: a
tree is what the events of its process make of an empty tree, from the submission that found none.
-/

namespace LogGuardian

open List

inductive TreeAction where
  | submit (event : LineageEvent) (now : ℤ)
  | gc (ttl now : ℤ)

namespace TreeAction

def step (falco : LineageEvent → Bool) (trees : AttackTrees) : TreeAction → AttackTrees
  | submit event now => attackTreeSubmit falco trees event now
  | gc ttl now => attackTreeGc trees ttl now

def eventOf (pid : ℤ) : TreeAction → Option (LineageEvent × ℤ)
  | submit event now => if event.pid = pid then some (event, now) else none
  | gc _ _ => none

end TreeAction

namespace AttackTrees

open TreeAction

variable {falco : LineageEvent → Bool} {trees : AttackTrees} {actions : List TreeAction}

def At (trees : AttackTrees) (i : ℕ) (tree : AttackTree) : Prop :=
  trees.slots[i]? = some (some tree)

/-- The table after a run. -/
def reached (falco : LineageEvent → Bool) (actions : List TreeAction) : AttackTrees :=
  Machine.run (step falco) init actions

/-- A process has one tree. The tree was made by a submission that found none of its process, and it
is the tree of that event and of all events of the process since then. The process of the last
submission has a tree. -/
structure Faithful (falco : LineageEvent → Bool) (actions : List TreeAction) : Prop where
  distinct : ∀ i j tree other, (reached falco actions).At i tree →
    (reached falco actions).At j other → tree.rootPid = other.rootPid → i = j
  replays : ∀ i tree, (reached falco actions).At i tree → ∃ front event now back,
    actions = front ++ submit event now :: back ∧ event.pid = tree.rootPid ∧
      (∀ j other, (reached falco front).At j other → other.rootPid ≠ event.pid) ∧
      tree = treeAfter falco tree.rootPid now
        ((event, now) :: back.filterMap (eventOf tree.rootPid))
  present : ∀ front event now, actions = front ++ [submit event now] →
    ∃ i tree, (reached falco actions).At i tree ∧ tree.rootPid = event.pid

theorem reached_append_singleton (falco : LineageEvent → Bool) (actions : List TreeAction)
    (action : TreeAction) :
    reached falco (actions ++ [action]) = step falco (reached falco actions) action := by
  rw [reached, Machine.run_append]
  rfl

theorem oldestSlot_least {slots : List (Option AttackTree)} (nonempty : slots ≠ []) :
    ∃ old, slots[oldestSlot slots]? = some old ∧
      ∀ other ∈ slots, old.elim 0 AttackTree.lastSeen ≤ other.elim 0 AttackTree.lastSeen := by
  let seen := slots.map fun slot => slot.elim 0 AttackTree.lastSeen
  have isMin : seen.min? = some (seen.foldl min (seen.headD 0)) := by
    rcases slots with _ | ⟨first, rest⟩
    · exact absurd rfl nonempty
    · exact min?_cons'.trans (by simp [seen])
  rcases min?_eq_some_iff.mp isMin with ⟨mem, least⟩
  have atIndex := getElem?_idxOf mem
  rw [getElem?_map, Option.map_eq_some_iff] at atIndex
  rcases atIndex with ⟨old, held, isOld⟩
  refine ⟨old, held, fun other mem => ?_⟩
  rw [isOld]
  exact least _ (mem_map_of_mem mem)

theorem findOrCreate_cases (trees : AttackTrees) (pid now : ℤ) :
    ∃ index known old, findOrCreate trees.slots pid now = (index, known) ∧ known.rootPid = pid ∧
      trees.slots[index]? = some old ∧
      (old = some known ∨
        known = freshTree pid now ∧ (∀ i tree, trees.At i tree → tree.rootPid ≠ pid) ∧
          ∀ tree, old = some tree → none ∉ trees.slots ∧
            ∀ i other, trees.At i other → tree.lastSeen ≤ other.lastSeen) := by
  unfold findOrCreate
  rcases found : trees.slots.findIdx? (isTreeOf pid) with _ | index
  · have noTree : ∀ i tree, trees.At i tree → tree.rootPid ≠ pid := by
      intro i tree held isPid
      have noTree := findIdx?_eq_none_iff.mp found (some tree) (mem_of_getElem? held)
      simp [isTreeOf, isPid] at noTree
    rcases free : trees.slots.findIdx? Option.isNone with _ | index
    · have nonempty : trees.slots ≠ [] := fun empty => by simpa [empty] using trees.length_slots
      rcases oldestSlot_least nonempty with ⟨old, held, least⟩
      refine ⟨_, _, old, rfl, rfl, held, Or.inr ⟨rfl, noTree, ?_⟩⟩
      rintro tree rfl
      refine ⟨fun mem => ?_, fun i other atI => least (some other) (mem_of_getElem? atI)⟩
      simpa using findIdx?_eq_none_iff.mp free none mem
    · rcases findIdx?_eq_some_iff_getElem.mp free with ⟨inside, isNone, -⟩
      refine ⟨index, _, none, rfl, rfl, ?_, Or.inr ⟨rfl, noTree, fun tree same => by cases same⟩⟩
      rw [getElem?_eq_getElem inside, Option.isNone_iff_eq_none.mp isNone]
  · rcases findIdx?_eq_some_iff_getElem.mp found with ⟨inside, isTree, -⟩
    rcases slot : trees.slots[index] with _ | known
    · rw [slot] at isTree
      cases isTree
    · rw [slot] at isTree
      have held : trees.slots[index]? = some (some known) := by
        rw [getElem?_eq_getElem inside, slot]
      refine ⟨index, known, some known, ?_, by simpa [isTreeOf] using isTree, held, Or.inl rfl⟩
      simp [held]

theorem rootPid_note (tree : AttackTree) (event : LineageEvent) (rule : Bool) (now : ℤ) :
    (tree.note event rule now).rootPid = tree.rootPid := by
  unfold AttackTree.note
  dsimp only
  split <;> rfl

theorem faithful_submit (faithful : Faithful falco actions) (event : LineageEvent) (now : ℤ) :
    Faithful falco (actions ++ [submit event now]) := by
  rcases findOrCreate_cases (reached falco actions) event.pid now with
    ⟨index, known, old, found, isPid, here, origin⟩
  have notedPid := (rootPid_note known event (falco event) now).trans isPid
  have inside : index < (reached falco actions).slots.length := (List.getElem?_eq_some_iff.mp here).1
  have entered {i : ℕ} {tree : AttackTree}
      (held : (reached falco (actions ++ [submit event now])).At i tree) :
      (i = index ∧ tree = known.note event (falco event) now) ∨
        i ≠ index ∧ (reached falco actions).At i tree := by
    rw [reached_append_singleton] at held
    simp only [At, step, attackTreeSubmit, found, getElem?_set] at held
    split_ifs at held with same
    · cases held
      exact Or.inl ⟨same.symm, rfl⟩
    · exact Or.inr ⟨Ne.symm same, held⟩
  -- A tree in another slot is of another process: its own slot would have been found.
  have others {i : ℕ} {tree : AttackTree} (elsewhere : i ≠ index)
      (held : (reached falco actions).At i tree) : tree.rootPid ≠ event.pid := by
    intro samePid
    rcases origin with rfl | ⟨-, noTree, -⟩
    · exact elsewhere (faithful.distinct _ _ _ _ held here (samePid.trans isPid.symm))
    · exact noTree i tree held samePid
  refine ⟨?_, ?_, ?_⟩
  · intro i j tree other atI atJ samePid
    rcases entered atI with ⟨rfl, rfl⟩ | ⟨notI, heldI⟩
    · rcases entered atJ with ⟨rfl, -⟩ | ⟨notJ, heldJ⟩
      · rfl
      · exact absurd (samePid.symm.trans notedPid) (others notJ heldJ)
    · rcases entered atJ with ⟨rfl, rfl⟩ | ⟨-, heldJ⟩
      · exact absurd (samePid.trans notedPid) (others notI heldI)
      · exact faithful.distinct i j tree other heldI heldJ samePid
  · intro i tree held
    rcases entered held with ⟨rfl, rfl⟩ | ⟨elsewhere, before⟩
    · rcases origin with rfl | ⟨fresh, noTree, -⟩
      · rcases faithful.replays _ _ here with ⟨front, first, start, back, run, firstPid, new, isTree⟩
        refine ⟨front, first, start, back ++ [submit event now], by simp [run],
          firstPid.trans (isPid.trans notedPid.symm), new, ?_⟩
        rw [notedPid, filterMap_append, ← cons_append, treeAfter, foldl_append, ← treeAfter, ← isPid,
          ← isTree]
        simp [eventOf, isPid]
      · refine ⟨actions, event, now, [], rfl, notedPid.symm, noTree, ?_⟩
        rw [notedPid, fresh]
        rfl
    · have other : ¬event.pid = tree.rootPid := (others elsewhere before).symm
      rcases faithful.replays i tree before with ⟨front, first, start, back, run, firstPid, new, isTree⟩
      refine ⟨front, first, start, back ++ [submit event now], by simp [run], firstPid, new, ?_⟩
      simpa [eventOf, other] using isTree
  · intro front last time isLast
    have same := (append_inj' isLast rfl).2
    rw [cons.injEq, submit.injEq] at same
    refine ⟨index, known.note event (falco event) now, ?_, same.1.1 ▸ notedPid⟩
    rw [reached_append_singleton]
    simp only [At, step, attackTreeSubmit, found]
    exact getElem?_set_self inside

theorem faithful_gc (faithful : Faithful falco actions) (ttl now : ℤ) :
    Faithful falco (actions ++ [gc ttl now]) := by
  have kept {i : ℕ} {tree : AttackTree}
      (held : (reached falco (actions ++ [gc ttl now])).At i tree) :
      (reached falco actions).At i tree := by
    rw [reached_append_singleton] at held
    simp only [At, step, attackTreeGc, getElem?_map, Option.map_eq_some_iff,
      Option.filter_eq_some_iff] at held
    rcases held with ⟨slot, atSlot, rfl, -⟩
    exact atSlot
  refine ⟨?_, ?_, ?_⟩
  · intro i j tree other atI atJ
    exact faithful.distinct i j tree other (kept atI) (kept atJ)
  · intro i tree held
    rcases faithful.replays i tree (kept held) with
      ⟨front, first, start, back, run, firstPid, new, isTree⟩
    refine ⟨front, first, start, back ++ [gc ttl now], by simp [run], firstPid, new, ?_⟩
    have silent : [gc ttl now].filterMap (eventOf tree.rootPid) = [] := rfl
    rw [filterMap_append, silent, append_nil]
    exact isTree
  · intro front last time isLast
    have same := (append_inj' isLast rfl).2
    simp at same

/-- Every run keeps the trees of the processes apart and their events whole. -/
theorem faithful_run (falco : LineageEvent → Bool) (actions : List TreeAction) :
    Faithful falco actions := by
  induction actions using reverseRecOn with
  | nil =>
    have empty (i : ℕ) (tree : AttackTree) : ¬(reached falco []).At i tree := by
      intro held
      exact absurd (eq_of_mem_replicate (mem_of_getElem? held)) (by simp)
    exact ⟨fun i _ tree _ held => absurd held (empty i tree),
      fun i tree held => absurd held (empty i tree), fun _ _ _ isLast => by simp at isLast⟩
  | append_singleton actions action ih =>
    cases action with
    | submit event now => exact faithful_submit ih event now
    | gc ttl now => exact faithful_gc ih ttl now

/-- A submission enters the event into the tree of its process, and another tree is only lost from a
full table, when its process is new there and no tree was seen earlier. -/
theorem attackTreeSubmit_spec (falco : LineageEvent → Bool) (trees : AttackTrees)
    (event : LineageEvent) (now : ℤ) :
    let after := attackTreeSubmit falco trees event now
    (∃ (i : ℕ) (tree : AttackTree), tree.rootPid = event.pid ∧
        after.At i (tree.note event (falco event) now)) ∧
      ∀ i tree, trees.At i tree → tree.rootPid ≠ event.pid → after.At i tree ∨
        none ∉ trees.slots ∧ ∀ j other, trees.At j other →
          other.rootPid ≠ event.pid ∧ tree.lastSeen ≤ other.lastSeen := by
  rcases findOrCreate_cases trees event.pid now with
    ⟨index, known, old, found, isPid, here, origin⟩
  have inside : index < trees.slots.length := (List.getElem?_eq_some_iff.mp here).1
  simp only [At, attackTreeSubmit, found]
  constructor
  · exact ⟨index, known, isPid, getElem?_set_self inside⟩
  · intro i tree before otherPid
    by_cases same : index = i
    · subst same
      rw [here, Option.some_inj] at before
      rcases origin with rfl | ⟨-, noTree, oldest⟩
      · rw [Option.some_inj] at before
        exact absurd (before ▸ isPid) otherPid
      · rcases oldest tree before with ⟨full, least⟩
        exact Or.inr ⟨full, fun j other atJ => ⟨noTree j other atJ, least j other atJ⟩⟩
    · exact Or.inl ((getElem?_set_ne same).trans before)

end AttackTrees

end LogGuardian
