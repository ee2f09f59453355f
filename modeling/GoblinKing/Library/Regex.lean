import Mathlib.Computability.Language

/-!
# Regular expressions

Regular expressions over classes of characters, their languages, and a matcher that finds what can be
left of a text behind a match at its beginning. A pattern may be required to match up to the end of a
line, which is the end of the text or the newline in front of it.
-/

/-- A regular expression. -/
inductive Regex (α : Type) where
  /-- one character of a class -/
  | cls (p : α → Bool)
  | seq (r s : Regex α)
  | opt (r : Regex α)
  | many (r : Regex α)
  /-- at most a number of times -/
  | upTo (n : ℕ) (r : Regex α)

namespace Regex

variable {α : Type}

/-- Texts made of at most a number of texts of a language. -/
def repeated (L : Language α) (n : ℕ) : Language α :=
  { w | ∃ pieces : List (List α), w = pieces.flatten ∧ pieces.length ≤ n ∧ ∀ piece ∈ pieces, piece ∈ L }

/-- The texts that a regular expression matches. -/
def language : Regex α → Language α
  | cls p => { w | ∃ c, p c = true ∧ w = [c] }
  | seq r s => r.language * s.language
  | opt r => 1 + r.language
  | many r => KStar.kstar r.language
  | upTo n r => repeated r.language n

/-- What can be left behind a number of matches, one behind the other. -/
def iterate (rests : List α → List (List α)) : ℕ → List α → List (List α)
  | 0, text => [text]
  | n + 1, text => text :: (rests text).flatMap (iterate rests n)

/-- What can be left of a text behind a match at its beginning. -/
def rests : Regex α → List α → List (List α)
  | cls _, [] => []
  | cls p, c :: text => if p c then [text] else []
  | seq r s, text => (r.rests text).flatMap s.rests
  | opt r, text => text :: r.rests text
  -- a match that is empty leaves what was there before
  | many r, text => iterate r.rests text.length text
  | upTo n r, text => iterate r.rests n text

/-! ### The matcher -/

/-- Iterated matches match what is repeated. -/
theorem mem_iterate {L : Language α} {rests : List α → List (List α)}
    (h : ∀ text rest, rest ∈ rests text ↔ ∃ w ∈ L, text = w ++ rest) (n : ℕ) (text rest : List α) :
  rest ∈ iterate rests n text ↔ ∃ w ∈ repeated L n, text = w ++ rest
  := by
  induction n generalizing text with
  | zero =>
      rw [iterate, List.mem_singleton]
      constructor
      · rintro rfl
        use [], ⟨[], rfl, Nat.le_refl _, by simp⟩
        rfl
      · rintro ⟨w, ⟨pieces, rfl, hlength, -⟩, rfl⟩
        rw [List.length_eq_zero_iff.mp (Nat.le_zero.mp hlength)]
        rfl
  | succ n ih =>
      rw [iterate, List.mem_cons, List.mem_flatMap]
      constructor
      · rintro (rfl | ⟨middle, hmiddle, hrest⟩)
        · use [], ⟨[], rfl, Nat.zero_le _, by simp⟩
          rfl
        · obtain ⟨piece, hpiece, rfl⟩ := (h _ _).mp hmiddle
          obtain ⟨w, ⟨pieces, rfl, hlength, hpieces⟩, rfl⟩ := (ih _).mp hrest
          use (piece :: pieces).flatten
          constructor
          · use piece :: pieces, rfl, Nat.succ_le_succ hlength
            exact List.forall_mem_cons.mpr ⟨hpiece, hpieces⟩
          · rw [List.flatten_cons, List.append_assoc]
      · rintro ⟨w, ⟨pieces, rfl, hlength, hpieces⟩, rfl⟩
        cases pieces with
        | nil => exact .inl rfl
        | cons piece pieces =>
            obtain ⟨hpiece, hpieces⟩ := List.forall_mem_cons.mp hpieces
            right
            use pieces.flatten ++ rest
            constructor
            · apply (h _ _).mpr
              use piece, hpiece
              rw [List.flatten_cons, List.append_assoc]
            · apply (ih _).mpr
              use pieces.flatten, ⟨pieces, rfl, Nat.le_of_succ_le_succ hlength, hpieces⟩

/-- A text is not made of more texts that are not empty than it has characters. -/
theorem length_le_of_flatten {pieces : List (List α)} (h : ∀ piece ∈ pieces, piece ≠ []) :
  pieces.length ≤ pieces.flatten.length
  := by
  induction pieces with
  | nil => apply Nat.le_refl
  | cons piece pieces ih =>
      obtain ⟨hpiece, hpieces⟩ := List.forall_mem_cons.mp h
      have hpos := List.length_pos_iff.mpr hpiece
      have hrest := ih hpieces
      rw [List.flatten_cons, List.length_append, List.length_cons]
      omega

/-- In a text, what is repeated any number of times is repeated at most as often as the text has
characters. -/
theorem mem_kstar_append_iff {L : Language α} {w rest : List α} :
  w ∈ KStar.kstar L ↔ w ∈ repeated L (w ++ rest).length
  := by
  constructor
  · intro h
    obtain ⟨pieces, rfl, hpieces⟩ := Language.mem_kstar_iff_exists_nonempty.mp h
    use pieces, rfl
    constructor
    · have hlength := length_le_of_flatten (fun piece hpiece => (hpieces piece hpiece).2)
      rw [List.length_append]
      omega
    · exact fun piece hpiece => (hpieces piece hpiece).1
  · rintro ⟨pieces, rfl, -, hpieces⟩
    exact Language.mem_kstar.mpr ⟨pieces, rfl, hpieces⟩

/-- The matcher finds what is behind the texts of the language. -/
theorem mem_rests (r : Regex α) (text rest : List α) :
  rest ∈ r.rests text ↔ ∃ w ∈ r.language, text = w ++ rest
  := by
  induction r generalizing text rest with
  | cls p =>
      cases text with
      | nil =>
          rw [rests]
          constructor
          · intro h
            cases h
          · rintro ⟨w, ⟨c, -, rfl⟩, h⟩
            cases h
      | cons c text =>
          rw [rests]
          split
          case isTrue hp =>
            rw [List.mem_singleton]
            constructor
            · rintro rfl
              use [c], ⟨c, hp, rfl⟩
              rfl
            · rintro ⟨w, ⟨d, -, rfl⟩, h⟩
              exact (List.cons_eq_cons.mp h).2.symm
          case isFalse hp =>
            constructor
            · intro h
              cases h
            · rintro ⟨w, ⟨d, hd, rfl⟩, h⟩
              obtain ⟨rfl, -⟩ := List.cons_eq_cons.mp h
              exact absurd hd hp
  | seq r s ihr ihs =>
      rw [rests, List.mem_flatMap]
      constructor
      · rintro ⟨middle, hmiddle, hrest⟩
        obtain ⟨u, hu, rfl⟩ := (ihr _ _).mp hmiddle
        obtain ⟨v, hv, rfl⟩ := (ihs _ _).mp hrest
        use u ++ v, Language.append_mem_mul hu hv
        rw [List.append_assoc]
      · rintro ⟨w, hw, rfl⟩
        obtain ⟨u, hu, v, hv, rfl⟩ := Language.mem_mul.mp hw
        use v ++ rest
        constructor
        · apply (ihr _ _).mpr
          use u, hu
          rw [List.append_assoc]
        · apply (ihs _ _).mpr
          use v, hv
  | opt r ih =>
      rw [rests, List.mem_cons, ih]
      constructor
      · rintro (rfl | ⟨w, hw, rfl⟩)
        · use [], .inl Language.nil_mem_one
          rfl
        · use w, .inr hw
      · rintro ⟨w, hw | hw, rfl⟩
        · obtain rfl := (Language.mem_one w).mp hw
          exact .inl rfl
        · exact .inr ⟨w, hw, rfl⟩
  | many r ih =>
      rw [rests, mem_iterate ih]
      constructor
      · rintro ⟨w, hw, rfl⟩
        use w, mem_kstar_append_iff.mpr hw
      · rintro ⟨w, hw, rfl⟩
        use w, mem_kstar_append_iff.mp hw
  | upTo n r ih =>
      rw [rests, mem_iterate ih]
      rfl

/-! ### Lines -/

/-- A text, perhaps with a newline behind it. -/
def Line (newline : α) (P : List α → Prop) (text : List α) : Prop :=
  P text ∨ ∃ w, P w ∧ text = w ++ [newline]

/-- The match of a pattern between the beginning and the end of a line. -/
def matchesLine [DecidableEq α] (newline : α) (r : Regex α) (text : List α) : Bool :=
  (r.rests text).any (fun rest => decide (rest = [] ∨ rest = [newline]))

/-- A pattern matches the lines of its language. -/
theorem matchesLine_iff [DecidableEq α] {newline : α} {r : Regex α} {text : List α} :
  r.matchesLine newline text = true ↔ Line newline (· ∈ r.language) text
  := by
  rw [matchesLine, List.any_eq_true]
  constructor
  · rintro ⟨rest, hrest, hend⟩
    obtain ⟨w, hw, rfl⟩ := (mem_rests r _ _).mp hrest
    rcases of_decide_eq_true hend with rfl | rfl
    · left
      rwa [List.append_nil]
    · exact .inr ⟨w, hw, rfl⟩
  · rintro (h | ⟨w, hw, rfl⟩)
    · use []
      constructor
      · apply (mem_rests r _ _).mpr
        use text, h
        rw [List.append_nil]
      · exact decide_eq_true (.inl rfl)
    · use [newline]
      constructor
      · exact (mem_rests r _ _).mpr ⟨w, hw, rfl⟩
      · exact decide_eq_true (.inr rfl)

theorem Line.congr {newline : α} {P Q : List α → Prop} (h : ∀ text, P text ↔ Q text)
    {text : List α} :
  Line newline P text ↔ Line newline Q text
  := by
  simp only [Line, h]

/-- Among texts without newlines, a line is the text. -/
theorem iff_line_and_notMem {newline : α} {P : List α → Prop}
    (h : ∀ text, P text → newline ∉ text) {text : List α} :
  P text ↔ Line newline P text ∧ newline ∉ text
  := by
  constructor
  · intro hp
    exact ⟨.inl hp, h text hp⟩
  · rintro ⟨hp | ⟨w, -, rfl⟩, hnewline⟩
    · exact hp
    · exact absurd (List.mem_append_right w (List.mem_singleton_self newline)) hnewline

/-! ### Classes of characters -/

theorem mem_language_seq {r s : Regex α} {w : List α} :
  w ∈ (seq r s).language ↔ ∃ u ∈ r.language, ∃ v ∈ s.language, u ++ v = w
  := Language.mem_mul

theorem mem_language_opt {r : Regex α} {w : List α} :
  w ∈ (opt r).language ↔ w = [] ∨ w ∈ r.language
  := by
  rw [language, Language.mem_add, Language.mem_one]

/-- Texts of characters of a class. -/
theorem forall_flatten_of_cls {p : α → Bool} {pieces : List (List α)}
    (h : ∀ piece ∈ pieces, piece ∈ (cls p).language) :
  (∀ c ∈ pieces.flatten, p c = true) ∧ pieces.flatten.length = pieces.length
  := by
  induction pieces with
  | nil => simp
  | cons piece pieces ih =>
      obtain ⟨⟨c, hc, rfl⟩, hpieces⟩ := List.forall_mem_cons.mp h
      obtain ⟨hall, hlength⟩ := ih hpieces
      constructor
      · simpa [hc] using hall
      · simp [hlength]

/-- A text is made of its characters. -/
theorem flatten_map_singleton (w : List α) :
  (w.map (fun c => [c])).flatten = w
  := by
  induction w with
  | nil => rfl
  | cons c w ih => rw [List.map_cons, List.flatten_cons, ih, List.singleton_append]

theorem mem_language_many_cls {p : α → Bool} {w : List α} :
  w ∈ (many (cls p)).language ↔ ∀ c ∈ w, p c = true
  := by
  rw [language, Language.mem_kstar]
  constructor
  · rintro ⟨pieces, rfl, hpieces⟩
    exact (forall_flatten_of_cls hpieces).1
  · intro h
    use w.map (fun c => [c]), (flatten_map_singleton w).symm
    intro piece hpiece
    obtain ⟨c, hc, rfl⟩ := List.mem_map.mp hpiece
    exact ⟨c, h c hc, rfl⟩

theorem mem_language_upTo_cls {p : α → Bool} {n : ℕ} {w : List α} :
  w ∈ (upTo n (cls p)).language ↔ w.length ≤ n ∧ ∀ c ∈ w, p c = true
  := by
  constructor
  · rintro ⟨pieces, rfl, hlength, hpieces⟩
    obtain ⟨hall, heq⟩ := forall_flatten_of_cls hpieces
    exact ⟨heq ▸ hlength, hall⟩
  · rintro ⟨hlength, hall⟩
    use w.map (fun c => [c]), (flatten_map_singleton w).symm
    constructor
    · rwa [List.length_map]
    · intro piece hpiece
      obtain ⟨c, hc, rfl⟩ := List.mem_map.mp hpiece
      exact ⟨c, hall c hc, rfl⟩

end Regex
