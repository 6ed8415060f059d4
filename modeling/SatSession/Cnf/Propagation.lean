import SatSession.Cnf.Basic

set_option autoImplicit false

namespace SatSession.Cnf

def assign (l : Literal) : List Clause → List Clause
  | [] => []
  | c :: cs => if c.contains l then assign l cs else c.filter (· != l.neg) :: assign l cs

def occurrences : List Clause → Nat
  | [] => 0
  | c :: cs => c.length + occurrences cs

def hasEmpty (cs : List Clause) : Bool := cs.any List.isEmpty

def unit? : List Clause → Option Literal
  | [] => none
  | [l] :: _ => some l
  | _ :: cs => unit? cs

def Occurs (l : Literal) (cs : List Clause) : Prop := ∃ c ∈ cs, l ∈ c

theorem occurs_of_unit? {cs : List Clause} {l : Literal} (h : unit? cs = some l) :
    Occurs l cs := by
  induction cs with
  | nil => simp [unit?] at h
  | cons c cs ih =>
      unfold unit? at h
      split at h
      · simp_all
      · simp_all [Occurs]
      · obtain ⟨d, hd, hl⟩ := ih (by simp_all)
        exact ⟨d, by simp_all, hl⟩

theorem occurrences_assign_le (l : Literal) (cs : List Clause) :
    occurrences (assign l cs) ≤ occurrences cs := by
  induction cs with
  | nil => exact Nat.le_refl _
  | cons c cs ih =>
      have hf : (c.filter (· != l.neg)).length ≤ c.length := List.length_filter_le ..
      simp only [assign, occurrences] at ih ⊢
      split <;> simp [occurrences] at ih ⊢ <;> omega

theorem occurrences_assign_lt {l : Literal} {cs : List Clause}
    (h : Occurs l cs ∨ Occurs l.neg cs) : occurrences (assign l cs) < occurrences cs := by
  induction cs with
  | nil => simp [Occurs] at h
  | cons c cs ih =>
      have hle := occurrences_assign_le l cs
      have hf : (c.filter (· != l.neg)).length ≤ c.length := List.length_filter_le ..
      simp only [assign, occurrences] at ih hle ⊢
      by_cases hl : c.contains l = true
      · have : 0 < c.length := by cases c <;> simp_all
        simp only [hl, if_true]
        omega
      · simp only [hl]
        by_cases hn : l.neg ∈ c
        · have : (c.filter (· != l.neg)).length < c.length := by
            apply List.length_filter_lt_length_iff_exists.mpr
            exact ⟨l.neg, hn, by simp⟩
          simp [occurrences]
          omega
        · have : Occurs l cs ∨ Occurs l.neg cs := by
            simp only [Occurs, List.mem_cons] at h ⊢
            rcases h with ⟨d, hd, hm⟩ | ⟨d, hd, hm⟩
            · rcases hd with rfl | hd
              · simp_all
              · exact .inl ⟨d, hd, hm⟩
            · rcases hd with rfl | hd
              · simp_all
              · exact .inr ⟨d, hd, hm⟩
          have := ih this
          simp [occurrences]
          omega

theorem holdsAll_assign {v : Valuation} {l : Literal} (h : l.holds v = true) (cs : List Clause) :
    holdsAll v (assign l cs) = holdsAll v cs := by
  induction cs with
  | nil => rfl
  | cons c cs ih =>
      simp only [assign]
      split
      next hc =>
        have : Clause.holds v c = true := by
          simp only [Clause.holds, List.any_eq_true]
          exact ⟨l, by simpa using hc, h⟩
        simp [holdsAll, this] at ih ⊢
        exact ih
      next =>
        have : Clause.holds v (c.filter (· != l.neg)) = Clause.holds v c := by
          simp only [Clause.holds, List.any_filter]
          congr 1
          funext k
          by_cases hk : k = l.neg
          · subst hk; simp [h]
          · simp [hk]
        simp [holdsAll, this] at ih ⊢
        rw [ih]

theorem holds_of_unit? {v : Valuation} {cs : List Clause} {l : Literal}
    (hu : unit? cs = some l) (h : holdsAll v cs = true) : l.holds v = true := by
  induction cs with
  | nil => simp [unit?] at hu
  | cons c cs ih =>
      simp only [holdsAll, List.all_cons, Bool.and_eq_true] at h
      unfold unit? at hu
      split at hu
      · simp_all
      · simp_all [Clause.holds]
      · simp_all [holdsAll]

theorem holdsAll_of_hasEmpty {v : Valuation} {cs : List Clause} (h : hasEmpty cs = true) :
    holdsAll v cs = false := by
  simp only [hasEmpty, List.any_eq_true] at h
  obtain ⟨c, hc, he⟩ := h
  simp only [holdsAll, List.all_eq_false]
  exact ⟨c, hc, by simp_all [Clause.holds]⟩

end SatSession.Cnf
