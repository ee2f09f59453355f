import Mathlib.Data.List.Induction

/-!
# What has held since an event

Something holds at the end of a list of events when one of them has started it and none after that one has
stopped it. Whatever is started and stopped by single events in this way holds exactly since its start.
-/

variable {α : Type} (start : List α → α → Prop) (stop : α → Prop)

/-- An event has started something, after the events before it, and no later event has stopped it. -/
def Since (events : List α) : Prop :=
  ∃ before event after, events = before ++ event :: after ∧ start before event ∧
    ∀ later ∈ after, ¬ stop later

variable {start stop}

/-- Nothing holds since an event when there was none. -/
theorem not_since_nil :
  ¬ Since start stop []
  := by
  rintro ⟨before, event, after, hsplit, -⟩
  simp at hsplit

/-- The last event starts it, or it held before and is not stopped. -/
theorem since_concat {events : List α} {last : α} :
  Since start stop (events ++ [last]) ↔
    start events last ∨ (Since start stop events ∧ ¬ stop last)
  := by
  constructor
  · rintro ⟨before, event, after, hsplit, hstart, hkept⟩
    rcases List.eq_nil_or_concat after with rfl | ⟨after, final, rfl⟩
    · obtain ⟨rfl, hlast⟩ := List.append_inj' hsplit rfl
      rw [(List.cons.inj hlast).1]
      exact .inl hstart
    · rw [List.concat_eq_append] at hsplit hkept
      rw [← List.cons_append, ← List.append_assoc] at hsplit
      obtain ⟨rfl, hlast⟩ := List.append_inj' hsplit rfl
      rw [(List.cons.inj hlast).1]
      right
      constructor
      · refine ⟨before, event, after, rfl, hstart, ?_⟩
        intro later hlater
        exact hkept later (List.mem_append_left _ hlater)
      · exact hkept final (List.mem_append_right _ (List.mem_singleton_self final))
  · rintro (hstart | ⟨⟨before, event, after, rfl, hstart, hkept⟩, hlast⟩)
    · exact ⟨events, last, [], rfl, hstart, by simp⟩
    · refine ⟨before, event, after ++ [last], by simp, hstart, ?_⟩
      intro later hlater
      rcases List.mem_append.mp hlater with hlater | hlater
      · exact hkept later hlater
      · rwa [List.mem_singleton.mp hlater]

/-- What single events start and stop holds exactly since its start. -/
theorem iff_since {P : List α → Prop} (hnil : ¬ P [])
    (hconcat : ∀ events last, P (events ++ [last]) ↔ start events last ∨ (P events ∧ ¬ stop last))
    (events : List α) :
  P events ↔ Since start stop events
  := by
  induction events using List.reverseRecOn with
  | nil => exact iff_of_false hnil not_since_nil
  | append_singleton events last ih => rw [hconcat, since_concat, ih]
