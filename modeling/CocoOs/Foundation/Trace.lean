import Mathlib.Tactic.TypeStar
import Mathlib.Data.List.Basic

/-!
# Traces of a labelled relation

A large step is often a list of small actions.  A trace chains the states
between the actions; the rules below carry an invariant along a trace, and
compute what an observation of the state becomes from the actions alone.
-/

namespace Foundation

variable {σ τ α : Type*}

/-- A list with an element of a kind splits at the first of them. -/
theorem exists_first
    {kind : α → Prop} {list : List α}
    (some : ∃ element ∈ list, kind element) :
    ∃ earlier first later, list = earlier ++ first :: later ∧ kind first ∧
      ∀ element ∈ earlier, ¬ kind element := by
  induction list with
  | nil => simp at some
  | cons head tail inductionHypothesis =>
      by_cases here : kind head
      · exact ⟨[], head, tail, rfl, here, by simp⟩
      · obtain ⟨element, inside, isKind⟩ := some
        rcases List.mem_cons.mp inside with rfl | inTail
        · exact absurd isKind here
        · obtain ⟨earlier, first, later, split, isFirst, none⟩ :=
            inductionHypothesis ⟨element, inTail, isKind⟩
          refine ⟨head :: earlier, first, later, by rw [split]; rfl, isFirst, ?_⟩
          intro other otherInside
          rcases List.mem_cons.mp otherInside with rfl | before
          · exact here
          · exact none other before

/-- A list with an element of a kind splits at the last of them. -/
theorem exists_last
    {kind : α → Prop} {list : List α}
    (some : ∃ element ∈ list, kind element) :
    ∃ earlier last later, list = earlier ++ last :: later ∧ kind last ∧
      ∀ element ∈ later, ¬ kind element := by
  obtain ⟨element, inside, isKind⟩ := some
  obtain ⟨later, last, earlier, split, isLast, none⟩ :=
    exists_first ⟨element, List.mem_reverse.mpr inside, isKind⟩
  refine ⟨earlier.reverse, last, later.reverse, ?_, isLast, ?_⟩
  · rw [← list.reverse_reverse, split]
    simp
  · exact fun other after => none other (List.mem_reverse.mp after)

/-- A range splits at each of its numbers, which is in neither part. -/
theorem exists_range_split
    {count number : Nat}
    (inside : number < count) :
    ∃ lower upper, List.range count = lower ++ number :: upper ∧
      number ∉ lower ∧ number ∉ upper := by
  obtain ⟨lower, upper, split⟩ :=
    List.append_of_mem (List.mem_range.mpr inside)
  have nodup : (lower ++ number :: upper).Nodup := split ▸ List.nodup_range
  obtain ⟨_, upperNodup, apart⟩ := List.nodup_append.mp nodup
  refine ⟨lower, upper, split, fun member => ?_,
    (List.nodup_cons.mp upperNodup).1⟩
  exact apart number member number (List.mem_cons_self ..) rfl

/-- The last of what is observed of the elements of a list. -/
def lastOf (observe : α → Option τ) (list : List α) : Option τ :=
  (list.filterMap observe).getLast?

@[simp] theorem lastOf_nil (observe : α → Option τ) :
    lastOf observe [] = none := rfl

theorem lastOf_cons (observe : α → Option τ) (head : α) (tail : List α) :
    lastOf observe (head :: tail) = (lastOf observe tail).or (observe head) := by
  unfold lastOf
  rw [List.filterMap_cons]
  cases observe head with
  | none => simp
  | some seen =>
      dsimp only
      rw [List.getLast?_cons]
      cases (tail.filterMap observe).getLast? <;> rfl

theorem lastOf_append (observe : α → Option τ) (first second : List α) :
    lastOf observe (first ++ second) =
      (lastOf observe second).or (lastOf observe first) := by
  induction first with
  | nil => simp
  | cons head tail inductionHypothesis =>
      rw [List.cons_append, lastOf_cons, lastOf_cons, inductionHypothesis,
        Option.or_assoc]

/-- The actions lead from the first state to the last. -/
inductive Trace (micro : σ → α → σ → Prop) : σ → List α → σ → Prop
  | nil (state : σ) : Trace micro state [] state
  | cons {start middle finish : σ} {action : α} {actions : List α}
      (first : micro start action middle)
      (rest : Trace micro middle actions finish) :
      Trace micro start (action :: actions) finish

namespace Trace

variable {micro : σ → α → σ → Prop} {start middle finish : σ}
variable {action : α} {first second actions : List α}

theorem single (acts : micro start action finish) :
    Trace micro start [action] finish :=
  .cons acts (.nil finish)

theorem append
    (earlier : Trace micro start first middle)
    (later : Trace micro middle second finish) :
    Trace micro start (first ++ second) finish := by
  induction earlier with
  | nil => exact later
  | cons acts _ inductionHypothesis =>
      exact .cons acts (inductionHypothesis later)

/-- One more action at the end. -/
theorem snoc
    (earlier : Trace micro start actions middle)
    (last : micro middle action finish) :
    Trace micro start (actions ++ [action]) finish :=
  earlier.append (.single last)

/-- A trace of two lists passes through a state between them. -/
theorem exists_middle
    (trace : Trace micro start (first ++ second) finish) :
    ∃ middle, Trace micro start first middle ∧
      Trace micro middle second finish := by
  induction first generalizing start with
  | nil => exact ⟨start, .nil start, trace⟩
  | cons action first inductionHypothesis =>
      cases trace with
      | cons acts rest =>
          obtain ⟨middle, earlier, later⟩ := inductionHypothesis rest
          exact ⟨middle, .cons acts earlier, later⟩

/-- A trace that ends where a property fails leaves the property with one of its
actions for the first time. -/
theorem exists_exit
    (holds : σ → Prop)
    (trace : Trace micro start actions finish)
    (initially : holds start)
    (ends : ¬ holds finish) :
    ∃ earlier action later before after,
      actions = earlier ++ action :: later ∧
      Trace micro start earlier before ∧ micro before action after ∧
      Trace micro after later finish ∧ holds before ∧ ¬ holds after ∧
      ∀ front, front <+: earlier →
        ∃ state, Trace micro start front state ∧ holds state := by
  induction trace with
  | nil => exact absurd initially ends
  | @cons start middle finish action actions first rest inductionHypothesis =>
      by_cases here : holds middle
      · obtain ⟨earlier, exit, later, before, after, rfl, back, acts, rest,
          holdsBefore, failsAfter, stays⟩ := inductionHypothesis here ends
        refine ⟨action :: earlier, exit, later, before, after, rfl,
          .cons first back, acts, rest, holdsBefore, failsAfter, ?_⟩
        intro front isPrefix
        cases front with
        | nil => exact ⟨start, .nil start, initially⟩
        | cons head front =>
            obtain ⟨rfl, inRest⟩ := List.cons_prefix_cons.mp isPrefix
            obtain ⟨state, along, there⟩ := stays front inRest
            exact ⟨state, .cons first along, there⟩
      · refine ⟨[], action, actions, start, middle, rfl, .nil start, first, rest,
          initially, here, ?_⟩
        intro front isPrefix
        rw [List.prefix_nil.mp isPrefix]
        exact ⟨start, .nil start, initially⟩

/-- Invariant rule, with what is known of the actions. -/
theorem invariant
    (allowed : α → Prop)
    (holds : σ → Prop)
    (preserved : ∀ state action state', allowed action → holds state →
      micro state action state' → holds state')
    (trace : Trace micro start actions finish)
    (allows : ∀ action ∈ actions, allowed action)
    (initially : holds start) :
    holds finish := by
  induction trace with
  | nil => exact initially
  | cons acts _ inductionHypothesis =>
      apply inductionHypothesis
      · intro action inside
        exact allows action (List.mem_cons_of_mem _ inside)
      · exact preserved _ _ _ (allows _ (List.mem_cons_self ..)) initially acts

/-- An observation that every action updates on its own is updated by the
actions in turn. -/
theorem observe
    (holds : σ → Prop)
    (preserved : ∀ state action state', holds state →
      micro state action state' → holds state')
    (observation : σ → τ)
    (update : τ → α → τ)
    (tracks : ∀ state action state', holds state →
      micro state action state' →
        observation state' = update (observation state) action)
    (trace : Trace micro start actions finish)
    (initially : holds start) :
    observation finish = actions.foldl update (observation start) := by
  induction trace with
  | nil => rfl
  | cons acts _ inductionHypothesis =>
      rw [inductionHypothesis (preserved _ _ _ initially acts), List.foldl_cons,
        tracks _ _ _ initially acts]

/-- Simulation rule: a view of the states that every action takes along is a
trace of its own. -/
theorem map
    {microView : τ → α → τ → Prop}
    (trace : Trace micro start actions finish)
    (view : σ → τ)
    (holds : σ → Prop)
    (preserved : ∀ state action state', holds state →
      micro state action state' → holds state')
    (simulates : ∀ state action state', holds state →
      micro state action state' → microView (view state) action (view state'))
    (initially : holds start) :
    Trace microView (view start) actions (view finish) := by
  induction trace with
  | nil => exact .nil _
  | cons acts _ inductionHypothesis =>
      exact .cons (simulates _ _ _ initially acts)
        (inductionHypothesis (preserved _ _ _ initially acts))

/-- A variable that every action overwrites or leaves alone holds what the
actions wrote last. -/
theorem observe_last
    (allowed : α → Prop)
    (observation : σ → τ)
    (observe : α → Option τ)
    (tracks : ∀ state action state', allowed action →
      micro state action state' →
      observation state' = (observe action).getD (observation state))
    (trace : Trace micro start actions finish)
    (allows : ∀ action ∈ actions, allowed action) :
    observation finish = (lastOf observe actions).getD (observation start) := by
  induction trace with
  | nil => rfl
  | @cons start middle finish action actions acts rest inductionHypothesis =>
      have later := inductionHypothesis fun action inside =>
        allows action (List.mem_cons_of_mem _ inside)
      rw [later, tracks _ _ _ (allows _ (List.mem_cons_self ..)) acts,
        lastOf_cons]
      cases lastOf observe actions <;> rfl

end Trace

end Foundation
