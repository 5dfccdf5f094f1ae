import Mathlib.Data.List.Induction
import Mathlib.Data.List.Nodup

/-!
# Texts in the order of their first appearance

Missions and columns are listed one by one, and a text that is listed already is not listed again.
So each stands where it first appeared.
-/

namespace PlanarDrive

/-- A text that was listed before is left out. -/
theorem eraseDups_concat (texts : List String) (t : String) :
    (texts ++ [t]).eraseDups = if t ∈ texts then texts.eraseDups else texts.eraseDups ++ [t] := by
  rw [List.eraseDups_append]
  by_cases h : t ∈ texts <;> simp [List.removeAll, List.eraseDups_cons, h]

theorem nodup_eraseDups (texts : List String) : texts.eraseDups.Nodup := by
  induction texts using List.reverseRecOn with
  | nil => exact List.nodup_nil
  | append_singleton texts t ih =>
    rw [eraseDups_concat]
    split_ifs with h
    · exact ih
    · refine List.nodup_append.2 ⟨ih, List.nodup_singleton t, fun a ha b hb heq => ?_⟩
      rw [heq, List.mem_singleton.1 hb, List.mem_eraseDups] at ha
      exact h ha

theorem foldl_listed (texts listed : List String) :
    texts.foldl (fun names t => if names.contains t then names else names ++ [t])
      listed.eraseDups = (listed ++ texts).eraseDups := by
  induction texts generalizing listed with
  | nil => rw [List.foldl_nil, List.append_nil]
  | cons t rest ih =>
    have hstep : (if listed.eraseDups.contains t then listed.eraseDups
        else listed.eraseDups ++ [t]) = (listed ++ [t]).eraseDups := by
      rw [eraseDups_concat]
      simp only [List.contains_iff_mem, List.mem_eraseDups]
    rw [List.foldl_cons, hstep, ih, List.append_assoc, List.singleton_append]

end PlanarDrive
