import PlanarDrive.Proofs.CallEffect

/-!
# Runs as chains of exchanges

The exchanges of a program follow one another: each begins in the session that the one before it
left. What every effect of a call keeps, a plan keeps, and so does a run.
-/

namespace PlanarDrive

variable {α : Type} [Scalar α]

namespace Session

section Keeps

variable {P : Session α → Prop}
  (hP : ∀ {β : Type} {s : Session α} {r : Except (Fault α) β × Session α},
    s.Effect r → P s → P r.2)
include hP

theorem obeyAll_keeps {s : Session α} (hs : P s) (commands : List (Command α)) :
    P (s.obeyAll commands).2 := by
  induction commands generalizing s with
  | nil => exact hs
  | cons c rest ih =>
    have hc := hP (s.effect_obey c) hs
    rcases hr : s.obey c with ⟨_ | _, t⟩
    · simpa only [obeyAll, hr] using hc
    · rw [hr] at hc
      simpa only [obeyAll, hr] using ih hc

theorem act_keeps {s : Session α} (hs : P s) (a : Act α) : P (s.act a).2 := by
  cases a with
  | call c => exact hP (s.effect_call c) hs
  | plan commands => exact obeyAll_keeps hP hs commands

end Keeps

/-- Exchanges that follow one another, the first of them in session `s`. -/
def Chained (s : Session α) : List (Exchange α) → Prop
  | [] => True
  | e :: rest => e.before = s ∧ (e.answer, e.after) = s.act e.act ∧ e.after.Chained rest

theorem chained_append {s : Session α} {xs ys : List (Exchange α)} :
    s.Chained (xs ++ ys) ↔ s.Chained xs ∧ (s.reached xs).Chained ys := by
  induction xs generalizing s with
  | nil => simp [Chained]
  | cons e xs ih => simp [Chained, ih, and_assoc]

theorem chained_exchanges (s : Session α) (p : Program α) : s.Chained (p.exchanges s) := by
  induction p generalizing s with
  | stop outcome => trivial
  | act a next ih => exact ⟨rfl, rfl, ih _ _⟩
  | run inner next ihInner ihNext =>
    rw [Program.exchanges, chained_append, inner.reached_exchanges]
    exact ⟨ihInner s, ihNext _ _⟩

theorem Chained.keeps {P : Session α → Prop}
    (hP : ∀ {β : Type} {s : Session α} {r : Except (Fault α) β × Session α},
      s.Effect r → P s → P r.2)
    {s : Session α} {es : List (Exchange α)} (h : s.Chained es) (hs : P s) :
    P (s.reached es) := by
  induction es generalizing s with
  | nil => exact hs
  | cons e es ih =>
    obtain ⟨rfl, ha, hrest⟩ := h
    have hafter : e.after = (e.before.act e.act).2 := congrArg Prod.snd ha
    apply ih hrest
    rw [hafter]
    exact act_keeps hP hs e.act

end Session

end PlanarDrive
