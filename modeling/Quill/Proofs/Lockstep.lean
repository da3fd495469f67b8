import Quill.Proofs.Run

/-!
# Runs in lockstep

The same requests are made of two drawings, one request after the other.  If every request keeps
a relation between the two drawings and ends in the same way on both, then so does every list of
requests.  Whatever else the requests look at, as a color table or an encoder, comes with them.
-/

namespace Quill

/-- A call together with the tools that it is given. -/
structure Request where
  tools : Tools
  call : Call

namespace Drawing

/-- What a request makes of a drawing, and how it ends. -/
def serve (drawing : Drawing) (request : Request) : Drawing × Outcome :=
  drawing.call request.tools request.call

/-- Make requests one after the other; failures do not stop them. -/
def perform (drawing : Drawing) : List Request → Drawing
  | [] => drawing
  | request :: rest => (drawing.serve request).1.perform rest

def outcomes (drawing : Drawing) : List Request → List Outcome
  | [] => []
  | request :: rest => (drawing.serve request).2 :: (drawing.serve request).1.outcomes rest

variable {drawing first second : Drawing} {earlier later requests : List Request}

theorem perform_append (drawing : Drawing) (earlier later : List Request) :
    drawing.perform (earlier ++ later) = (drawing.perform earlier).perform later := by
  induction earlier generalizing drawing with
  | nil => rfl
  | cons request rest ih => exact ih _

theorem outcomes_append (drawing : Drawing) (earlier later : List Request) :
    drawing.outcomes (earlier ++ later) =
      drawing.outcomes earlier ++ (drawing.perform earlier).outcomes later := by
  induction earlier generalizing drawing with
  | nil => rfl
  | cons request rest ih => exact congrArg _ (ih _)

/-- What every request of a list keeps of two drawings, the list keeps. -/
theorem lockstep {related : Drawing → Drawing → Prop}
    (kept : ∀ request ∈ requests, ∀ {first second : Drawing}, related first second →
      (first.serve request).2 = (second.serve request).2 ∧
        related (first.serve request).1 (second.serve request).1)
    (start : related first second) :
    first.outcomes requests = second.outcomes requests ∧
      related (first.perform requests) (second.perform requests) := by
  induction requests generalizing first second with
  | nil => exact ⟨rfl, start⟩
  | cons request rest ih =>
      obtain ⟨same, next⟩ := kept request List.mem_cons_self start
      obtain ⟨others, last⟩ :=
        ih (fun request member => kept request (List.mem_cons_of_mem _ member)) next
      exact ⟨List.cons_eq_cons.mpr ⟨same, others⟩, last⟩

end Drawing

theorem Reachable.of_serve {drawing : Drawing} (reachable : Reachable drawing)
    (request : Request) : Reachable (drawing.serve request).1 := by
  have called : drawing.call request.tools request.call = drawing.serve request := rfl
  exact reachable.of_call called

theorem Reachable.of_perform {drawing : Drawing} (reachable : Reachable drawing)
    (requests : List Request) : Reachable (drawing.perform requests) := by
  induction requests generalizing drawing with
  | nil => exact reachable
  | cons request rest ih => exact ih (reachable.of_serve request)

end Quill
