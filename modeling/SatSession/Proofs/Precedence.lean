import Mathlib.Data.List.Induction
import SatSession.Config.Toml

set_option autoImplicit false

namespace SatSession.Config

section Keys

variable {β : Type} {es : List (String × β)} {k : String} {b : β}

theorem exists_lookup_iff : (∃ b, es.lookup k = some b) ↔ k ∈ es.map Prod.fst := by
  rw [← Option.isSome_iff_exists, List.lookup_isSome_iff, List.mem_map]
  simp only [beq_iff_eq, @eq_comm _ k]

theorem lookup_eq_none_of_not_mem (unseen : k ∉ es.map Prod.fst) : es.lookup k = none := by
  cases found : es.lookup k with
  | none => rfl
  | some b => exact absurd (exists_lookup_iff.mp ⟨b, found⟩) unseen

theorem mem_iff_lookup (distinct : (es.map Prod.fst).Nodup) :
    (k, b) ∈ es ↔ es.lookup k = some b := by
  constructor
  · intro member
    induction es with
    | nil => cases member
    | cons e es ih =>
      obtain ⟨new, rest⟩ := List.nodup_cons.mp distinct
      rcases List.mem_cons.mp member with rfl | later
      · rw [List.lookup_cons_self]
      · have other : k ≠ e.1 := fun same => new (same ▸ List.mem_map_of_mem later)
        rw [List.lookup_cons, beq_false_of_ne other]
        exact ih rest later
  · intro found
    obtain ⟨_, _, rfl, -⟩ := List.lookup_eq_some_iff.mp found
    simp

end Keys

theorem Table.mem_iff {V : Type} {t : Table V} {k : String} {v : V} :
    (k, v) ∈ t.entries ↔ t.get? k = some v := mem_iff_lookup t.distinct

theorem Table.get?_extend {V : Type} {t : Table V} {es : List (String × V)} {k : String} :
    (t.extend es).get? k = (es.reverse.lookup k).or (t.get? k) := by
  induction es generalizing t with
  | nil => rfl
  | cons e es ih =>
    have step : (t.extend (e :: es)).get? k = ((t.insert e.1 e.2).extend es).get? k := rfl
    rw [step, ih, get?_insert, List.reverse_cons, List.lookup_append, Option.or_assoc,
      List.lookup_cons]
    grind

theorem Table.get?_extend_table {V : Type} {t u : Table V} {k : String} :
    (t.extend u.entries).get? k = (u.get? k).or (t.get? k) := by
  have distinct : (u.entries.reverse.map Prod.fst).Nodup := by
    rw [List.map_reverse]
    exact (List.reverse_perm _).nodup_iff.mpr u.distinct
  have same : u.entries.reverse.lookup k = u.get? k := by
    refine Option.ext fun v => ?_
    rw [← mem_iff_lookup distinct, List.mem_reverse, Table.mem_iff]
  rw [get?_extend, same]

namespace Reading

variable {V : Type} {R : Reading V} {c d : Config} {k : String} {v : V} {x : Setting}
  {es : List (String × V)}

theorem setting?_named (read : R.setting? v k = some x) : k ∈ names := by
  unfold setting? at read
  split at read <;> simp_all [names]

theorem setting?_assign (read : R.setting? v k = some x) (k' : String) :
    (c.assign k x).setting? k' = if k' = k then some x else c.setting? k' := by
  unfold setting? at read
  split at read
  all_goals
    first
    | (obtain ⟨y, -, rfl⟩ := Option.map_eq_some_iff.mp read
       unfold assign Config.setting?
       split <;> simp_all)
    | cases read

theorem set?_eq_some_iff :
    R.set? c k v = some d ↔ ∃ x, R.setting? v k = some x ∧ c.assign k x = d :=
  Option.map_eq_some_iff

theorem exists_setAll?_iff :
    (∃ d, R.setAll? c es = some d) ↔ ∀ e ∈ es, ∃ x, R.setting? e.2 e.1 = some x := by
  induction es generalizing c with
  | nil => simp [setAll?]
  | cons e es ih =>
    rw [List.forall_mem_cons]
    constructor
    · rintro ⟨d, set⟩
      obtain ⟨b, one, more⟩ := Option.bind_eq_some_iff.mp set
      obtain ⟨x, read, -⟩ := set?_eq_some_iff.mp one
      exact ⟨⟨x, read⟩, ih.mp ⟨d, more⟩⟩
    · rintro ⟨⟨x, read⟩, others⟩
      obtain ⟨d, more⟩ := (ih (c := c.assign e.1 x)).mpr others
      exact ⟨d, Option.bind_eq_some_iff.mpr ⟨_, set?_eq_some_iff.mpr ⟨x, read, rfl⟩, more⟩⟩

theorem setting?_setAll? (distinct : (es.map Prod.fst).Nodup) (set : R.setAll? c es = some d)
    (k : String) : d.setting? k =
      match es.lookup k with
      | some v => R.setting? v k
      | none => c.setting? k := by
  induction es generalizing c with
  | nil =>
    cases set
    rfl
  | cons e es ih =>
    obtain ⟨k₀, v⟩ := e
    obtain ⟨new, distinct⟩ := List.nodup_cons.mp distinct
    obtain ⟨b, one, more⟩ := Option.bind_eq_some_iff.mp set
    obtain ⟨x, read, rfl⟩ := set?_eq_some_iff.mp one
    rw [ih distinct more, List.lookup_cons]
    by_cases same : k = k₀
    · subst same
      simp [lookup_eq_none_of_not_mem new, setting?_assign read, read]
    · simp [same, beq_false_of_ne same, setting?_assign read]

end Reading

theorem exists_setting? (c : Config) {k : String} (named : k ∈ names) :
    ∃ x, c.setting? k = some x := by
  simp only [names, List.mem_cons, List.not_mem_nil, or_false] at named
  rcases named with rfl | rfl | rfl | rfl | rfl | rfl <;> exact ⟨_, rfl⟩

theorem Toml.format_documented : format.Documented where
  ofBool _ := rfl
  denied {t _ k v} built found := by
    obtain ⟨x, read⟩ := Reading.exists_setAll?_iff.mp ⟨_, built⟩ (k, v) (Table.mem_iff.mpr found)
    exact Reading.setting?_named read
  given {t _ k _} built found := by
    have given := Reading.setting?_setAll? t.distinct built k
    rwa [show t.entries.lookup k = some _ from found] at given
  defaults {t _ k} built absent := by
    have given := Reading.setting?_setAll? t.distinct built k
    rwa [show t.entries.lookup k = none from absent] at given
  accepted {t} fits := Reading.exists_setAll?_iff.mpr fun e member =>
    fits e.1 e.2 (Table.mem_iff.mp member)

inductive Source (F : Format) where
  | document (text : String)
  | setting (key : String) (value : F.Value)

variable {F : Format}

namespace Source

def table : Source F → Table F.Value
  | document text => (F.read? text).getD .empty
  | setting key value => Table.empty.insert key value

end Source

def give (t : Table F.Value) : Source F → Table F.Value
  | .document text =>
      match F.read? text with
      | some u => t.extend u.entries
      | none => t
  | .setting key value => t.insert key value

def collect (ss : List (Source F)) : Table F.Value := ss.foldl give .empty

def lastValue? (k : String) (ss : List (Source F)) : Option F.Value :=
  ss.reverse.findSome? (·.table.get? k)

theorem get?_give (t : Table F.Value) (s : Source F) (k : String) :
    (give t s).get? k = (s.table.get? k).or (t.get? k) := by
  cases s with
  | document text =>
    rw [give, Source.table]
    cases F.read? text with
    | none => rfl
    | some u => exact Table.get?_extend_table
  | setting key value =>
    rw [give, Source.table, Table.get?_insert, Table.get?_insert]
    split <;> rfl

theorem lastValue?_concat (k : String) (ss : List (Source F)) (s : Source F) :
    lastValue? k (ss ++ [s]) = (s.table.get? k).or (lastValue? k ss) := by
  rw [lastValue?, List.reverse_concat, List.findSome?_cons]
  cases s.table.get? k <;> rfl

theorem get?_collect (k : String) (ss : List (Source F)) :
    (collect ss).get? k = lastValue? k ss := by
  induction ss using List.reverseRec with
  | nil => rfl
  | append_singleton ss s ih =>
    have step : collect (ss ++ [s]) = give (collect ss) s := List.foldl_append
    rw [step, get?_give, ih, lastValue?_concat]

theorem exists_lastValue?_iff {k : String} {ss : List (Source F)} :
    (∃ v, lastValue? k ss = some v) ↔ ∃ s ∈ ss, ∃ v, s.table.get? k = some v := by
  rw [← Option.isSome_iff_exists, lastValue?, List.findSome?_isSome_iff]
  simp only [List.mem_reverse, Option.isSome_iff_exists]

theorem collect_malformed {document : String} (malformed : F.read? document = none)
    (before after : List (Source F)) :
    collect (before ++ .document document :: after) = collect (before ++ after) := by
  have unchanged (t : Table F.Value) : give t (.document document) = t := by
    simp only [give, malformed]
  simp only [collect, List.foldl_append, List.foldl_cons, unchanged]

/-- The value of an option is the last one given, or its default. Nothing but these values decides
whether there is a configuration, except that an unknown key is never made good. -/
theorem last_source_wins (documented : F.Documented) (ss : List (Source F)) :
    ((∃ c, F.config? (collect ss) = some c) ↔
      (∀ s ∈ ss, ∀ k v, s.table.get? k = some v → k ∈ names) ∧
        ∀ k ∈ names, ∀ v, lastValue? k ss = some v → ∃ x, F.reading.setting? v k = some x) ∧
    (∀ c, F.config? (collect ss) = some c → ∀ k ∈ names, c.setting? k =
      match lastValue? k ss with
      | some v => F.reading.setting? v k
      | none => setting? {} k) ∧
    ∀ (before after : List (Source F)) document, F.read? document = none →
      collect (before ++ .document document :: after) = collect (before ++ after) := by
  refine ⟨⟨fun ⟨c, built⟩ => ⟨fun s member k v found => ?_, fun k named v last => ?_⟩,
    fun ⟨named, fits⟩ => documented.accepted fun k v found => ?_⟩, fun c built k _ => ?_,
    fun before after document malformed => collect_malformed malformed before after⟩
  · obtain ⟨v, last⟩ := exists_lastValue?_iff.mpr ⟨s, member, v, found⟩
    exact documented.denied built ((get?_collect k ss).trans last)
  · obtain ⟨x, known⟩ := exists_setting? c named
    exact ⟨x, (documented.given built ((get?_collect k ss).trans last)).symm.trans known⟩
  · rw [get?_collect] at found
    obtain ⟨s, member, w, given⟩ := exists_lastValue?_iff.mp ⟨v, found⟩
    exact fits k (named s member k w given) v found
  · cases last : lastValue? k ss with
    | some v => exact documented.given built ((get?_collect k ss).trans last)
    | none => exact documented.defaults built ((get?_collect k ss).trans last)

-- A value of the wrong type and a broken document do no harm, an unknown option does.
theorem verbosity_overridden :
    let first : Source Toml.format := .document "verbosity = \"high\"\nprefix = 1979-05-27"
    let last : Source Toml.format := .setting "verbosity" (.integer 2)
    Toml.format.Documented ∧
      collect [first, .document "verbosity = 3\noutput", last] = collect [first, last] ∧
      (∃ c, Toml.format.config? (collect [first, last]) = some c ∧
        c.setting? "verbosity" = some (.number 2) ∧
        c.setting? "prefix" = some (.text "1979-05-27")) ∧
      ¬∃ c, Toml.format.config? (collect [.document "verbosty = 1", first, last]) = some c := by
  intro first last
  have documented := Toml.format_documented
  have broken : (Toml.format.read? "verbosity = 3\noutput").isNone = true := by decide +kernel
  have unknown : ((Source.document "verbosty = 1" : Source Toml.format).table.get?
      "verbosty").isSome = true := by decide +kernel
  have config : Toml.format.config? (collect [first, last]) =
      some { verbosity := 2, lead := "1979-05-27" } := by decide +kernel
  obtain ⟨-, values, dropped⟩ := last_source_wins documented [first, last]
  obtain ⟨spoiled, -⟩ := last_source_wins documented [.document "verbosty = 1", first, last]
  refine ⟨documented, dropped [first] [last] _ (Option.isNone_iff_eq_none.mp broken),
    ⟨_, config, values _ config "verbosity" (by decide), rfl⟩, fun accepted => ?_⟩
  obtain ⟨v, given⟩ := Option.isSome_iff_exists.mp unknown
  have named := (spoiled.mp accepted).1 _ List.mem_cons_self "verbosty" v given
  exact absurd named (by decide)

end SatSession.Config
