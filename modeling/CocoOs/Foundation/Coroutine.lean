import Mathlib.Tactic.TypeStar
import Mathlib.Data.List.Basic

/-!
# Coroutines by a jump to a mark

A coroutine can be written as a procedure that returns at its marked
statements and, when it is called again, jumps behind the statement it returned
at.  `enter` is this jump.  `control` takes apart the stack of statements that
a thread of its own would have left to do.  When no two statements carry the
same mark, the mark alone tells what is left to do.
-/

namespace Foundation

/-- Structured code over plain statements, marked statements and tests. -/
inductive Code (ℓ ι κ γ : Type*)
  | skip
  | plain (statement : ι)
  | marked (mark : ℓ) (statement : κ)
  | seq (first second : Code ℓ ι κ γ)
  | branch (test : γ) (yes no : Code ℓ ι κ γ)
  | loop (test : γ) (body : Code ℓ ι κ γ)

namespace Code

variable {ℓ ι κ γ : Type*}

/-- The marks of a code, in the order of its text. -/
def marks : Code ℓ ι κ γ → List ℓ
  | .skip => []
  | .plain _ => []
  | .marked mark _ => [mark]
  | .seq first second => first.marks ++ second.marks
  | .branch _ yes no => yes.marks ++ no.marks
  | .loop _ body => body.marks

/-- The jump behind the statement that carries a mark: what is left to do
there, when `rest` is left to do after the code. -/
def enter [DecidableEq ℓ] (mark : ℓ) :
    Code ℓ ι κ γ → List (Code ℓ ι κ γ) → Option (List (Code ℓ ι κ γ))
  | .skip, _ => none
  | .plain _, _ => none
  | .marked here _, rest => if here = mark then some rest else none
  | .seq first second, rest =>
      (first.enter mark (second :: rest)).or (second.enter mark rest)
  | .branch _ yes no, rest => (yes.enter mark rest).or (no.enter mark rest)
  | .loop test body, rest => body.enter mark (.loop test body :: rest)

/-- Take apart the first of the statements left to do.  A plain or marked
statement is left whole. -/
def control (holds : γ → Bool) :
    Code ℓ ι κ γ → List (Code ℓ ι κ γ) → List (Code ℓ ι κ γ)
  | .skip, rest => rest
  | .plain statement, rest => .plain statement :: rest
  | .marked mark statement, rest => .marked mark statement :: rest
  | .seq first second, rest => first :: second :: rest
  | .branch test yes no, rest => (if holds test then yes else no) :: rest
  | .loop test body, rest =>
      if holds test then body :: .loop test body :: rest else rest

section

variable [DecidableEq ℓ] {root : Code ℓ ι κ γ} {mark : ℓ}
variable {rest : List (Code ℓ ι κ γ)}

theorem enter_eq_none
    {code : Code ℓ ι κ γ}
    (absent : mark ∉ code.marks) :
    code.enter mark rest = none := by
  induction code generalizing rest with
  | skip => rfl
  | plain statement => rfl
  | marked here statement =>
      rw [marks, List.mem_singleton] at absent
      rw [enter, if_neg (Ne.symm absent)]
  | seq first second firstHypothesis secondHypothesis =>
      rw [marks, List.mem_append, not_or] at absent
      rw [enter, firstHypothesis absent.1, secondHypothesis absent.2]
      rfl
  | branch test yes no yesHypothesis noHypothesis =>
      rw [marks, List.mem_append, not_or] at absent
      rw [enter, yesHypothesis absent.1, noHypothesis absent.2]
      rfl
  | loop test body bodyHypothesis => exact bodyHypothesis absent

theorem enter_isSome
    {code : Code ℓ ι κ γ}
    (present : mark ∈ code.marks) :
    (code.enter mark rest).isSome := by
  induction code generalizing rest with
  | skip => simp [marks] at present
  | plain statement => simp [marks] at present
  | marked here statement =>
      rw [marks, List.mem_singleton] at present
      rw [enter, if_pos present.symm]
      rfl
  | seq first second firstHypothesis secondHypothesis =>
      rw [enter, Option.isSome_or, Bool.or_eq_true]
      rcases List.mem_append.mp present with inFirst | inSecond
      · exact .inl (firstHypothesis inFirst)
      · exact .inr (secondHypothesis inSecond)
  | branch test yes no yesHypothesis noHypothesis =>
      rw [enter, Option.isSome_or, Bool.or_eq_true]
      rcases List.mem_append.mp present with inYes | inNo
      · exact .inl (yesHypothesis inYes)
      · exact .inr (noHypothesis inNo)
  | loop test body bodyHypothesis => exact bodyHypothesis present

/-! ## What is left to do is where the jumps lead -/

/-- Every statement left to do stands in the procedure where the jump to a mark
inside it leads. -/
inductive Placed (root : Code ℓ ι κ γ) : List (Code ℓ ι κ γ) → Prop
  | nil : Placed root []
  | cons {code : Code ℓ ι κ γ} {rest : List (Code ℓ ι κ γ)}
      (distinct : code.marks.Nodup)
      (enters : ∀ mark ∈ code.marks, root.enter mark [] = code.enter mark rest)
      (later : Placed root rest) :
      Placed root (code :: rest)

theorem Placed.start (distinct : root.marks.Nodup) : Placed root [root] :=
  .cons distinct (fun _ _ => rfl) .nil

theorem Placed.tail
    {code : Code ℓ ι κ γ}
    (placed : Placed root (code :: rest)) :
    Placed root rest := by
  cases placed with
  | cons distinct enters later => exact later

/-- A procedure that returns at a marked statement is entered again where it
would have gone on. -/
theorem Placed.enter_mark
    {statement : κ}
    (placed : Placed root (.marked mark statement :: rest)) :
    root.enter mark [] = some rest := by
  cases placed with
  | cons distinct enters later =>
      rw [enters mark (List.mem_singleton_self mark), enter, if_pos rfl]

theorem Placed.seq
    {first second : Code ℓ ι κ γ}
    (placed : Placed root (.seq first second :: rest)) :
    Placed root (first :: second :: rest) := by
  cases placed with
  | cons distinct enters later =>
      obtain ⟨firstDistinct, secondDistinct, apart⟩ :=
        List.nodup_append.mp distinct
      refine .cons firstDistinct (fun mark inFirst => ?_)
        (.cons secondDistinct (fun mark inSecond => ?_) later)
      · have found : (first.enter mark (second :: rest)).isSome :=
          enter_isSome inFirst
        rw [enters mark (List.mem_append_left _ inFirst), enter]
        exact Option.or_of_isSome found
      · have notFirst : mark ∉ first.marks :=
          fun inFirst => apart mark inFirst mark inSecond rfl
        rw [enters mark (List.mem_append_right _ inSecond), enter,
          enter_eq_none notFirst]
        rfl

theorem Placed.branch
    {test : γ} {yes no : Code ℓ ι κ γ} (holds : γ → Bool)
    (placed : Placed root (.branch test yes no :: rest)) :
    Placed root ((if holds test then yes else no) :: rest) := by
  cases placed with
  | cons distinct enters later =>
      obtain ⟨yesDistinct, noDistinct, apart⟩ := List.nodup_append.mp distinct
      split_ifs
      · refine .cons yesDistinct (fun mark inYes => ?_) later
        have found : (yes.enter mark rest).isSome := enter_isSome inYes
        rw [enters mark (List.mem_append_left _ inYes), enter]
        exact Option.or_of_isSome found
      · refine .cons noDistinct (fun mark inNo => ?_) later
        have notYes : mark ∉ yes.marks :=
          fun inYes => apart mark inYes mark inNo rfl
        rw [enters mark (List.mem_append_right _ inNo), enter,
          enter_eq_none notYes]
        rfl

theorem Placed.loop
    {test : γ} {body : Code ℓ ι κ γ}
    (placed : Placed root (.loop test body :: rest)) :
    Placed root (body :: .loop test body :: rest) := by
  cases placed with
  | cons distinct enters later =>
      exact .cons distinct (fun mark inside => enters mark inside)
        (.cons distinct enters later)

/-- Control keeps what is left to do in its place. -/
theorem Placed.control
    {code : Code ℓ ι κ γ}
    (holds : γ → Bool)
    (placed : Placed root (code :: rest)) :
    Placed root (code.control holds rest) := by
  cases code with
  | skip => exact placed.tail
  | plain statement => exact placed
  | marked mark statement => exact placed
  | seq first second => exact placed.seq
  | branch test yes no => exact placed.branch holds
  | loop test body =>
      rw [Code.control]
      split_ifs
      · exact placed.loop
      · exact placed.tail

end

end Code

end Foundation
