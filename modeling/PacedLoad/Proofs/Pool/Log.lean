import Mathlib.Data.List.Basic
import PacedLoad.Watermark.Service

/-!
# What the completion time service was told

A log of events, each with the handler that it is about.  Handlers are told apart
by their tickets, and what holds of the events of every handler holds of all
events.
-/

namespace PacedLoad

/-- An event that was sent to the completion time service, and the ticket of the handler that it
is about; an operation that the pool refused has none. -/
structure Sent where
  handler : Option Nat
  event : Watermark.Event
deriving DecidableEq, Repr

def eventsOf (log : List Sent) (handler : Option Nat) : List Watermark.Event :=
  log.filterMap fun s => if s.handler = handler then some s.event else none

theorem eventsOf_append (log later : List Sent) (handler : Option Nat) :
    eventsOf (log ++ later) handler = eventsOf log handler ++ eventsOf later handler := by
  simp [eventsOf]

theorem eventsOf_map (events : List Watermark.Event) (handler other : Option Nat) :
    eventsOf (events.map (⟨handler, ·⟩)) other = if handler = other then events else [] := by
  by_cases same : handler = other <;> simp [eventsOf, List.filterMap_map, same]

theorem count_split (log : List Sent) (handler : Option Nat) (e : Watermark.Event) :
    (log.map Sent.event).count e = (eventsOf log handler).count e +
      ((log.filter fun s => decide (s.handler ≠ handler)).map Sent.event).count e := by
  induction log with
  | nil => rfl
  | cons head rest ih =>
    by_cases here : head.handler = handler
    · simp [eventsOf, List.count_cons, here] at ih ⊢
      omega
    · simp [eventsOf, List.count_cons, here] at ih ⊢
      omega

theorem eventsOf_filter (log : List Sent) (handler other : Option Nat) :
    eventsOf (log.filter fun s => decide (s.handler ≠ handler)) other =
      if other = handler then [] else eventsOf log other := by
  induction log with
  | nil => simp [eventsOf]
  | cons head rest ih =>
    by_cases here : head.handler = handler <;> by_cases there : head.handler = other <;>
      simp_all [eventsOf]

/-- An event that no handler was heard with more often than with another one was sent less often
exactly if some handler was heard with it less often. -/
theorem count_lt_iff {d e : Watermark.Event} (log : List Sent)
    (fewer : ∀ handler, (eventsOf log handler).count d ≤ (eventsOf log handler).count e) :
    (log.map Sent.event).count d ≤ (log.map Sent.event).count e ∧
      ((log.map Sent.event).count d < (log.map Sent.event).count e ↔
        ∃ handler, (eventsOf log handler).count d < (eventsOf log handler).count e) := by
  -- the handlers are gone through one by one, each with all of its events
  induction size : log.length using Nat.strongRecOn generalizing log with
  | ind n ih =>
    cases log with
    | nil => simp [eventsOf]
    | cons head rest =>
      let others := (head :: rest).filter fun s => decide (s.handler ≠ head.handler)
      have shorter : others.length < n := by
        have bound := List.length_filter_le (fun s => decide (s.handler ≠ head.handler)) rest
        simp only [List.length_cons] at size
        simp only [others, ne_eq, List.filter_cons, not_true, decide_false, Bool.false_eq_true,
          if_false] at bound ⊢
        omega
      have left : ∀ handler, eventsOf others handler =
          if handler = head.handler then [] else eventsOf (head :: rest) handler :=
        eventsOf_filter _ _
      obtain ⟨bound, strict⟩ := ih _ shorter others (fun handler => by
        rw [left]
        split
        · exact Nat.le_refl _
        · exact fewer handler) rfl
      have here := fewer head.handler
      have parts : ∀ a, ((head :: rest).map Sent.event).count a =
          (eventsOf (head :: rest) head.handler).count a + (others.map Sent.event).count a :=
        count_split _ head.handler
      rw [parts d, parts e]
      refine ⟨Nat.add_le_add here bound, ?_⟩
      constructor
      · intro less
        by_cases equal : (eventsOf (head :: rest) head.handler).count d <
            (eventsOf (head :: rest) head.handler).count e
        · exact ⟨_, equal⟩
        · obtain ⟨handler, less⟩ := strict.mp (by omega)
          rw [left] at less
          split at less
          · simp at less
          · exact ⟨handler, less⟩
      · rintro ⟨handler, less⟩
        by_cases same : handler = head.handler
        · subst same
          exact Nat.add_lt_add_of_lt_of_le less bound
        · have some := strict.mpr ⟨handler, by rwa [left, if_neg same]⟩
          exact Nat.add_lt_add_of_le_of_lt here some

end PacedLoad
