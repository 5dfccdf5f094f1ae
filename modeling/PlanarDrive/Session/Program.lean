import PlanarDrive.Session

/-!
# Programs and what they say to a session

A program is a script as a session meets it. It asks for one thing after the other, and what
it asks for next may depend on every answer so far, refusals included. One program may run
another and go on when that has ended, well or badly. The exchanges of a run are what was
asked and answered, with the session before and after.
-/

namespace PlanarDrive

/-- What a program asks for: one of the five calls, or a plan to be carried out. -/
inductive Act (α : Type)
  | call (c : Call α)
  | plan (commands : List (Command α))

inductive Program (α : Type)
  | stop (outcome : Except (Fault α) Unit)
  | act (a : Act α) (next : Except (Fault α) (Option α) → Program α)
  | run (inner : Program α) (next : Except (Fault α) Unit → Program α)

structure Exchange (α : Type) [Scalar α] where
  before : Session α
  act : Act α
  answer : Except (Fault α) (Option α)
  after : Session α

variable {α : Type} [Scalar α]

def Session.act (s : Session α) : Act α → Except (Fault α) (Option α) × Session α
  | .call c => s.call c
  | .plan commands =>
    let r := s.obeyAll commands
    (r.1.map fun _ => none, r.2)

namespace Program

def exec : Program α → Session α → Except (Fault α) Unit × Session α
  | stop outcome, s => (outcome, s)
  | act a next, s => (next (s.act a).1).exec (s.act a).2
  | run inner next, s => (next (inner.exec s).1).exec (inner.exec s).2

def exchanges : Program α → Session α → List (Exchange α)
  | stop _, _ => []
  | act a next, s =>
    ⟨s, a, (s.act a).1, (s.act a).2⟩ :: (next (s.act a).1).exchanges (s.act a).2
  | run inner next, s =>
    inner.exchanges s ++ (next (inner.exec s).1).exchanges (inner.exec s).2

end Program

def Session.reached (s : Session α) (exchanges : List (Exchange α)) : Session α :=
  exchanges.foldl (fun _ e => e.after) s

@[simp] theorem Session.reached_nil (s : Session α) : s.reached [] = s :=
  rfl

@[simp] theorem Session.reached_cons (s : Session α) (e : Exchange α) (rest : List (Exchange α)) :
    s.reached (e :: rest) = e.after.reached rest :=
  rfl

theorem Session.reached_append (s : Session α) (xs ys : List (Exchange α)) :
    s.reached (xs ++ ys) = (s.reached xs).reached ys := by
  simp [reached]

theorem Session.reached_concat (s : Session α) (xs : List (Exchange α)) (e : Exchange α) :
    s.reached (xs ++ [e]) = e.after := by
  rw [reached_append, reached_cons, reached_nil]

theorem Program.reached_exchanges (p : Program α) (s : Session α) :
    s.reached (p.exchanges s) = (p.exec s).2 := by
  induction p generalizing s with
  | stop outcome => rfl
  | act a next ih => exact ih _ _
  | run inner next ihInner ihNext =>
    rw [exchanges, Session.reached_append, ihInner, ihNext, exec]

end PlanarDrive
