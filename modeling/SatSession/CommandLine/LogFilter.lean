import SatSession.CommandLine.Transcript
import SatSession.Text.Blank
import SatSession.Text.Pattern

set_option autoImplicit false

namespace SatSession.CommandLine

structure Directive where
  topic : List Char
  limit : Nat
deriving DecidableEq

namespace Directive

def limit? (word : List Char) : Option Nat :=
  match String.ofList (word.map Char.toLower) with
  | "off" => some 0
  | "error" => some 1
  | "warn" => some 2
  | "info" => some 3
  | "debug" => some 4
  | "trace" => some 5
  | _ => none

def cutAt (separator : Char) : List Char → List (List Char)
  | [] => [[]]
  | c :: cs =>
      if c = separator then [] :: cutAt separator cs
      else
        match cutAt separator cs with
        | [] => [[c]]
        | p :: ps => (c :: p) :: ps

def ofText? (cs : List Char) : Option Directive :=
  match cutAt '=' cs with
  | [[]] => none
  | [word] =>
      match limit? word with
      | some n => some ⟨[], n⟩
      | none => some ⟨word, 5⟩
  | [topic, word] =>
      let word := Text.trim word
      if word.isEmpty then some ⟨topic, 5⟩ else (limit? word).map (⟨topic, ·⟩)
  | _ => none

def covers (d : Directive) (topic : String) : Bool := d.topic.isPrefixOf topic.toList

end Directive

structure LogFilter where
  directives : List Directive
  pattern : Option Text.Pattern := none
deriving DecidableEq

namespace LogFilter

def standard : LogFilter := ⟨[⟨[], Level.info.rank⟩], none⟩

def extend (f : LogFilter) (directives : List Char) : LogFilter :=
  { f with directives :=
      f.directives ++ (Directive.cutAt ',' directives).filterMap Directive.ofText? }

-- The standard filter followed by the directives of a text; a text with more than one slash is
-- passed over.
def ofText (text : String) : LogFilter :=
  match Directive.cutAt '/' text.toList with
  | [directives] => standard.extend directives
  | [directives, pattern] =>
      { standard.extend directives with pattern := Text.Pattern.ofText? (String.ofList pattern) }
  | _ => standard

def better (topic : String) (best : Option Directive) (d : Directive) : Option Directive :=
  if d.covers topic && best.all (fun b => b.topic.length ≤ d.topic.length) then some d else best

def governing? (f : LogFilter) (topic : String) : Option Directive :=
  f.directives.foldl (better topic) none

def shows (f : LogFilter) (topic : String) (level : Level) (text : String) : Bool :=
  (f.governing? topic).any (fun d => level.rank ≤ d.limit) && f.pattern.all (·.occursIn text)

theorem foldl_better {topic : String} {ds : List Directive} {best : Option Directive}
    {d : Directive} (covers : ∀ b, best = some b → b.covers topic = true)
    (h : ds.foldl (better topic) best = some d) :
    d.covers topic = true ∧ (∀ b, best = some b → b.topic.length ≤ d.topic.length) ∧
      ∀ e ∈ ds, e.covers topic = true → e.topic.length ≤ d.topic.length := by
  induction ds generalizing best with
  | nil =>
      obtain rfl : best = some d := h
      exact ⟨covers d rfl, fun b hb => by cases hb; exact Nat.le_refl _, by simp⟩
  | cons e ds ih =>
      rw [List.foldl_cons] at h
      by_cases he : (e.covers topic &&
          best.all fun b => decide (b.topic.length ≤ e.topic.length)) = true
      · rw [better, if_pos he] at h
        rw [Bool.and_eq_true] at he
        obtain ⟨hd, hbest, hall⟩ := ih (fun b hb => by cases hb; exact he.1) h
        have hed := hbest e rfl
        refine ⟨hd, fun b hb => ?_, fun x hx hc => ?_⟩
        · have := he.2
          simp only [hb, Option.all_some, decide_eq_true_eq] at this
          exact Nat.le_trans this hed
        · rcases List.mem_cons.mp hx with rfl | hx
          · exact hed
          · exact hall x hx hc
      · rw [better, if_neg he] at h
        obtain ⟨hd, hbest, hall⟩ := ih covers h
        refine ⟨hd, hbest, fun x hx hc => ?_⟩
        rcases List.mem_cons.mp hx with rfl | hx
        · cases best with
          | none => simp [hc] at he
          | some b =>
              have := hbest b rfl
              simp only [hc, Option.all_some, Bool.true_and, decide_eq_true_eq] at he
              omega
        · exact hall x hx hc

theorem longest_of_governing? {f : LogFilter} {topic : String} {d : Directive}
    (h : f.governing? topic = some d) :
    d.covers topic = true ∧
      ∀ e ∈ f.directives, e.covers topic = true → e.topic.length ≤ d.topic.length :=
  have found := foldl_better (by simp) h
  ⟨found.1, found.2.2⟩

end LogFilter

end SatSession.CommandLine
