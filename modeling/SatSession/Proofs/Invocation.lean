import SatSession.CommandLine.Scan
import SatSession.Proofs.Precedence

set_option autoImplicit false

namespace SatSession

namespace CommandLine

theorem bind_eq_ok {ε α β : Type} {x : Except ε α} {f : α → Except ε β} {b : β}
    (done : (x >>= f) = .ok b) : ∃ a, x = .ok a ∧ f a = .ok b := by
  cases x with
  | ok a => exact ⟨a, rfl, done⟩
  | error e => cases done

namespace Scan

variable {s t : Scan}

structure Noted (s : Scan) : Prop where
  values : ∀ v ∈ s.values, v.1 ∈ s.given
  waiting : ∀ p, s.waiting = some p → p ∈ s.given

theorem Noted.start : Noted {} := ⟨by simp, by simp⟩

theorem Noted.take (noted : s.Noted) {p : Parameter} (given : p ∈ s.given) (v : String) :
    (s.take p v).Noted where
  values := by
    simp only [Scan.take, List.forall_mem_cons]
    exact ⟨given, noted.values⟩
  waiting := by simp [Scan.take]

theorem Noted.give (noted : s.Noted) (p : Parameter) (attached : Option (List Char)) :
    (s.give p attached).Noted := by
  have grown : ({ s with given := p :: s.given } : Scan).Noted :=
    ⟨fun v member => List.mem_cons_of_mem _ (noted.values v member),
      fun q waits => List.mem_cons_of_mem _ (noted.waiting q waits)⟩
  cases attached with
  | some v => exact grown.take List.mem_cons_self _
  | none =>
    refine ⟨grown.values, fun q waits => ?_⟩
    obtain rfl := Option.some.inj waits
    exact List.mem_cons_self

theorem Noted.addInput (noted : s.Noted) {w : String} (added : s.addInput w = .ok t) :
    t.Noted := by
  unfold Scan.addInput at added
  split at added
  · cases added
    exact ⟨noted.values, noted.waiting⟩
  · cases added

theorem Noted.switch (noted : s.Noted) {o : Switch} (switched : s.switch o = .ok t) :
    t.Noted := by
  cases o with
  | all =>
    cases switched
    exact ⟨noted.values, by simp⟩
  | help | version => cases switched

theorem Noted.long (noted : s.Noted) {w : String} (read : s.long w = .ok t) : t.Noted := by
  unfold Scan.long at read
  dsimp only at read
  split at read
  · cases read
    exact noted.give _ _
  · exact noted.switch read
  · cases read

theorem Noted.short (noted : s.Noted) {w : String} (read : s.short w = .ok t) : t.Noted := by
  unfold Scan.short at read
  split at read
  · cases read
  · split at read
    · cases read
      exact noted.give _ _
    · exact noted.switch read
    · cases read

theorem Noted.word (noted : s.Noted) {w : String} (read : s.word w = .ok t) : t.Noted := by
  unfold Scan.word at read
  split at read
  · exact noted.addInput read
  · split at read
    · split at read
      next p waits =>
        cases read
        exact noted.take (noted.waiting p waits) w
      next => exact noted.addInput read
    · split at read
      · cases read
        exact ⟨noted.values, noted.waiting⟩
      · split at read
        · exact noted.long read
        · exact noted.short read

theorem Noted.words (noted : s.Noted) {ws : List String} (read : ws.foldlM Scan.word s = .ok t) :
    t.Noted := by
  induction ws generalizing s with
  | nil =>
    cases read
    exact noted
  | cons w ws ih =>
    rw [List.foldlM_cons] at read
    obtain ⟨u, first, rest⟩ := bind_eq_ok read
    exact ih (noted.word first) rest

theorem Noted.wants (noted : s.Noted) {p : Parameter} (report : p.isReport = true) {v : String}
    (value : (s.valuesOf p).head? = some v) : s.given.any (·.isReport) = true := by
  have member := List.mem_of_mem_head? value
  obtain ⟨x, found, -⟩ := List.mem_map.mp member
  rw [List.mem_filter, List.mem_reverse, beq_iff_eq] at found
  exact List.any_eq_true.mpr ⟨p, found.2 ▸ noted.values x found.1, report⟩

end Scan

theorem Scan.read_present {ws : List String} {a : Arguments} (read : Scan.read ws = .ok a)
    (asked : a.requests ≠ []) : a.wantsReport = true := by
  obtain ⟨s, scanned, finished⟩ := bind_eq_ok read
  have noted := Scan.Noted.start.words scanned
  unfold Scan.finish at finished
  split at finished
  · cases finished
  · split at finished
    · cases finished
    · cases finished
      have unasked (p : Parameter) (report : p.isReport = true)
          (unwanted : s.given.any (·.isReport) = false) : (s.valuesOf p).head? = none := by
        cases value : (s.valuesOf p).head? with
        | none => rfl
        | some v => simp [noted.wants report value] at unwanted
      cases wanted : s.given.any (·.isReport) with
      | true => rfl
      | false =>
        simp [Arguments.requests, unasked .core rfl wanted, unasked .compactTrace rfl wanted,
          unasked .extendedTrace rfl wanted] at asked

section Options

variable {F : Config.Format}

theorem loadConfig_traces (documented : F.Documented) {w : Surroundings} {a : Arguments}
    {c : Config} (wanted : a.wantsReport = true) (loaded : loadConfig F w a = .ok c) :
    c.traceGeneration = true := by
  have forced {o : Options F} (built : buildConfig F a o = .ok c) : c.traceGeneration = true := by
    obtain ⟨p, -, built⟩ := bind_eq_ok built
    simp only [wanted, if_true] at built
    split at built
    next d read =>
      cases built
      have given : (p.insert "enable_trace_generation" (F.ofBool true)).get?
          "enable_trace_generation" = some (F.ofBool true) := by
        rw [Config.Table.get?_insert, if_pos rfl]
      have kept := documented.given read given
      simpa [Config.setting?, Config.Reading.setting?, documented.ofBool] using kept
    next => cases built
  unfold loadConfig at loaded
  split at loaded
  · exact forced loaded
  · obtain ⟨o, -, loaded⟩ := bind_eq_ok loaded
    exact forced loaded

end Options

end CommandLine

end SatSession
