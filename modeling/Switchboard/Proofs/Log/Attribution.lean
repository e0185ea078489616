import Mathlib.Data.List.DropRight
import Mathlib.Data.List.Forall2
import Mathlib.Data.List.ReduceOption
import Switchboard.Log.Event

/-!
# To whom captured events belong

What happens in a script are emissions, each with the scopes around it, and clearings (`LogCapture.happeningsIn`). The
events of a capture are the emissions behind the last clearing (`LogCapture.events_run`), and each belongs to the
client of the innermost scope around it that has one. So a detached scope might as well not be there
(`LogCapture.events_run_undetached`), and without the clearings the capture would only begin earlier
(`LogCapture.events_run_suffix_uncleared`).
-/

namespace Switchboard.LogCapture

/-! ### What happens in a script -/

/-- A record that is emitted, who passes it on, and the scopes around it, the innermost first. A detached scope is
`none`. -/
structure Emission where
  scopes : List (Option Identity)
  origin : String
  record : LogRecord

/-- The client of the innermost scope that has one. -/
def innermost (scopes : List (Option Identity)) : Option Identity := scopes.reduceOption.head?

theorem innermost_detached (scopes : List (Option Identity)) : innermost (none :: scopes) = innermost scopes := rfl

theorem innermost_client (i : Identity) (scopes : List (Option Identity)) :
    innermost (some i :: scopes) = some i := rfl

namespace Emission

/-- The name of the client to which an emission belongs, if there is one. -/
def client? (e : Emission) : Option String := (innermost e.scopes).map Identity.text

def event (e : Emission) : LogEvent := e.record.event e.origin e.client?

/-- An event shows an emission: the record at its level with its message, who passed it on, the logger and the time,
and the client to which it belongs. -/
structure ShownBy (e : Emission) (v : LogEvent) : Prop where
  level : v.level = e.record.level
  message : v.message = e.record.message
  fields : v.fields = [("origin", e.origin), ("logger", e.record.logger),
    ("ts", String.ofList (Decimal.intText e.record.timestampMs.toInt))]
  client : v.client = e.client?

theorem shownBy_event (e : Emission) : e.ShownBy e.event := ⟨rfl, rfl, rfl, rfl⟩

theorem forall₂_shownBy (l : List Emission) : List.Forall₂ ShownBy l (l.map event) := by
  rw [List.forall₂_map_right_iff, List.forall₂_same]
  exact fun e _ => e.shownBy_event

end Emission

mutual
/-- What happens in a step within scopes. A clearing is `none`. -/
def Step.happenings (scopes : List (Option Identity)) : Step → List (Option Emission)
  | .emit origin record => [some ⟨scopes, origin, record⟩]
  | .clear => [none]
  | .scope client steps => happeningsIn (client :: scopes) steps

/-- What happens in a script within scopes, in order. -/
def happeningsIn (scopes : List (Option Identity)) : List Step → List (Option Emission)
  | [] => []
  | s :: r => s.happenings scopes ++ happeningsIn scopes r
end

/-! ### Behind the last clearing -/

/-- What stands behind the last `none`. -/
def sinceClear {α : Type} (l : List (Option α)) : List α := (l.rtakeWhile Option.isSome).reduceOption

section

variable {α β : Type}

theorem sinceClear_concat_some (l : List (Option α)) (a : α) : sinceClear (l ++ [some a]) = sinceClear l ++ [a] := by
  rw [sinceClear, List.rtakeWhile_concat_pos Option.isSome l (some a) rfl, List.reduceOption_append, sinceClear]
  rfl

theorem sinceClear_concat_none (l : List (Option α)) : sinceClear (l ++ [none]) = [] := by
  rw [sinceClear, List.rtakeWhile_concat_neg Option.isSome l none Bool.false_ne_true, List.reduceOption_nil]

theorem sinceClear_map (f : α → β) (l : List (Option α)) :
    sinceClear (l.map (Option.map f)) = (sinceClear l).map f := by
  induction l using List.reverseRecOn with
  | nil => rfl
  | append_singleton l o ih =>
    rw [List.map_append, List.map_singleton]
    cases o with
    | none => rw [Option.map_none, sinceClear_concat_none, sinceClear_concat_none, List.map_nil]
    | some a =>
      rw [Option.map_some, sinceClear_concat_some, sinceClear_concat_some, ih, List.map_append, List.map_singleton]

/-- Without the clearings more is left, but what was left stands at the end. -/
theorem sinceClear_suffix_filter (l : List (Option α)) : sinceClear l <:+ sinceClear (l.filter Option.isSome) := by
  have hall : (l.filter Option.isSome).rtakeWhile Option.isSome = l.filter Option.isSome := by
    rw [List.rtakeWhile_eq_self_iff]
    exact fun o ho => (List.mem_filter.1 ho).2
  have hreduce : (l.filter Option.isSome).reduceOption = l.reduceOption := by
    rw [List.reduceOption, List.filterMap_filter]
    refine List.filterMap_congr fun o _ => ?_
    cases o <;> rfl
  rw [sinceClear, sinceClear, hall, hreduce]
  exact (List.rtakeWhile_suffix Option.isSome l).filterMap id

end

/-! ### The run of a script -/

mutual
/-- A step within scopes keeps a capture of what happened behind the last clearing. -/
theorem events_step {seen : List (Option Emission)} {c : LogCapture}
    (hc : c.events = (sinceClear seen).map Emission.event) (scopes : List (Option Identity)) (s : Step) :
    (step ((innermost scopes).map Identity.text) c s).events =
      (sinceClear (seen ++ s.happenings scopes)).map Emission.event := by
  match s with
  | .emit origin record =>
    rw [step, Step.happenings, sinceClear_concat_some, List.map_append, ← hc]
    rfl
  | .clear =>
    rw [step, Step.happenings, sinceClear_concat_none]
    rfl
  | .scope none steps =>
    rw [step, Step.happenings, ← innermost_detached]
    exact events_runFrom hc _ steps
  | .scope (some i) steps =>
    have hentered : ({ c with entered := true } : LogCapture).events = (sinceClear seen).map Emission.event := hc
    rw [step, Step.happenings]
    exact events_runFrom hentered (some i :: scopes) steps

theorem events_runFrom {seen : List (Option Emission)} {c : LogCapture}
    (hc : c.events = (sinceClear seen).map Emission.event) (scopes : List (Option Identity)) (steps : List Step) :
    (runFrom ((innermost scopes).map Identity.text) c steps).events =
      (sinceClear (seen ++ happeningsIn scopes steps)).map Emission.event := by
  match steps with
  | [] =>
    rw [runFrom, happeningsIn, List.append_nil]
    exact hc
  | s :: rest =>
    rw [runFrom, happeningsIn, ← List.append_assoc]
    exact events_runFrom (events_step hc scopes s) scopes rest
end

/-- The events of a capture are the emissions behind the last clearing. -/
theorem events_run (steps : List Step) :
    (run steps).events = (sinceClear (happeningsIn [] steps)).map Emission.event := by
  have hempty : empty.events = (sinceClear []).map Emission.event := rfl
  exact events_runFrom hempty [] steps

/-! ### Detached scopes -/

mutual
/-- A step without the detached scopes in it, whose steps take their place. -/
def Step.undetached : Step → List Step
  | .emit origin record => [.emit origin record]
  | .clear => [.clear]
  | .scope none steps => undetached steps
  | .scope (some i) steps => [.scope (some i) (undetached steps)]

def undetached : List Step → List Step
  | [] => []
  | s :: r => s.undetached ++ undetached r
end

theorem happeningsIn_append (scopes : List (Option Identity)) (steps steps' : List Step) :
    happeningsIn scopes (steps ++ steps') = happeningsIn scopes steps ++ happeningsIn scopes steps' := by
  induction steps with
  | nil => rfl
  | cons s steps ih => rw [List.cons_append, happeningsIn, happeningsIn, ih, List.append_assoc]

theorem happeningsIn_singleton (scopes : List (Option Identity)) (s : Step) :
    happeningsIn scopes [s] = s.happenings scopes := by
  rw [happeningsIn, happeningsIn, List.append_nil]

mutual
/-- Without its detached scopes a step shows the same events, also where there are others around it. -/
theorem map_event_undetached_step {scopes scopes' : List (Option Identity)} (h : innermost scopes = innermost scopes')
    (s : Step) : (happeningsIn scopes s.undetached).map (Option.map Emission.event) =
      (s.happenings scopes').map (Option.map Emission.event) := by
  match s with
  | .emit origin record =>
    have hevent : Emission.event ⟨scopes, origin, record⟩ = Emission.event ⟨scopes', origin, record⟩ := by
      rw [Emission.event, Emission.event, Emission.client?, Emission.client?, h]
    rw [Step.undetached, happeningsIn_singleton, Step.happenings, Step.happenings, List.map_singleton,
      List.map_singleton, Option.map_some, Option.map_some, hevent]
  | .clear => rfl
  | .scope none steps =>
    rw [Step.undetached, Step.happenings]
    exact map_event_undetached (h.trans (innermost_detached scopes').symm) steps
  | .scope (some i) steps =>
    have hclient : innermost (some i :: scopes) = innermost (some i :: scopes') :=
      (innermost_client i scopes).trans (innermost_client i scopes').symm
    rw [Step.undetached, happeningsIn_singleton, Step.happenings, Step.happenings]
    exact map_event_undetached hclient steps

theorem map_event_undetached {scopes scopes' : List (Option Identity)} (h : innermost scopes = innermost scopes')
    (steps : List Step) : (happeningsIn scopes (undetached steps)).map (Option.map Emission.event) =
      (happeningsIn scopes' steps).map (Option.map Emission.event) := by
  match steps with
  | [] => rfl
  | s :: rest =>
    rw [undetached, happeningsIn_append, List.map_append, happeningsIn, List.map_append,
      map_event_undetached_step h s, map_event_undetached h rest]
end

/-- Detached scopes do not matter. -/
theorem events_run_undetached (steps : List Step) : (run (undetached steps)).events = (run steps).events := by
  rw [events_run, events_run, ← sinceClear_map, ← sinceClear_map, map_event_undetached rfl]

/-! ### Clearings -/

mutual
/-- A step without the clearings in it. -/
def Step.uncleared : Step → List Step
  | .emit origin record => [.emit origin record]
  | .clear => []
  | .scope client steps => [.scope client (uncleared steps)]

def uncleared : List Step → List Step
  | [] => []
  | s :: r => s.uncleared ++ uncleared r
end

mutual
theorem happeningsIn_uncleared_step (scopes : List (Option Identity)) (s : Step) :
    happeningsIn scopes s.uncleared = (s.happenings scopes).filter Option.isSome := by
  match s with
  | .emit origin record => rfl
  | .clear => rfl
  | .scope client steps =>
    rw [Step.uncleared, happeningsIn_singleton, Step.happenings, Step.happenings]
    exact happeningsIn_uncleared (client :: scopes) steps

theorem happeningsIn_uncleared (scopes : List (Option Identity)) (steps : List Step) :
    happeningsIn scopes (uncleared steps) = (happeningsIn scopes steps).filter Option.isSome := by
  match steps with
  | [] => rfl
  | s :: rest =>
    rw [uncleared, happeningsIn_append, happeningsIn, List.filter_append, happeningsIn_uncleared_step,
      happeningsIn_uncleared]
end

/-- Clearings only forget what was captured before them. -/
theorem events_run_suffix_uncleared (steps : List Step) : (run steps).events <:+ (run (uncleared steps)).events := by
  rw [events_run, events_run, happeningsIn_uncleared]
  exact (sinceClear_suffix_filter _).map _

/-! ### By client and by level -/

theorem forClient_eq_map {c : LogCapture} {l : List Emission} (h : c.events = l.map Emission.event) (name : String) :
    c.forClient name = (l.filter (·.client? == some name)).map Emission.event := by
  rw [forClient, h, List.filter_map]
  rfl

theorem countAt_eq_countP {c : LogCapture} {l : List Emission} (h : c.events = l.map Emission.event)
    (level : LogLevel) : c.countAt level = l.countP (·.record.level == level) := by
  rw [countAt, h, List.countP_map]
  rfl

/-- Every event is counted at one level. -/
theorem countAt_add_up (c : LogCapture) :
    c.countAt .trace + c.countAt .debug + c.countAt .info + c.countAt .warn + c.countAt .error = c.events.length := by
  simp only [countAt]
  induction c.events with
  | nil => rfl
  | cons e l ih =>
    rw [List.length_cons, ← ih]
    simp only [List.countP_cons]
    cases e.level <;> simp <;> omega

/-- The events of a capture are the records that were emitted since the last clearing, in order. Each has the level
and the message of its record, the record's logger and time and who passed it on as its fields, and the client of the
innermost scope around it that has one; detached scopes and clearings make no difference to this. The events of a
client are those with its name, and those at each level add up to all. -/
theorem captured_since_clear (steps : List Step) :
    let emitted := sinceClear (happeningsIn [] steps)
    let c := run steps
    List.Forall₂ Emission.ShownBy emitted c.events ∧
    ((run (undetached steps)).events = c.events ∧ c.events <:+ (run (uncleared steps)).events) ∧
    (∀ name, (c.forClient name).Sublist c.events ∧
      List.Forall₂ Emission.ShownBy (emitted.filter (·.client? == some name)) (c.forClient name)) ∧
    (∀ level, c.countAt level = emitted.countP (·.record.level == level)) ∧
    c.countAt .trace + c.countAt .debug + c.countAt .info + c.countAt .warn + c.countAt .error = c.events.length := by
  intro emitted c
  have hevents : c.events = emitted.map Emission.event := events_run steps
  refine ⟨?_, ⟨events_run_undetached steps, events_run_suffix_uncleared steps⟩, fun name => ⟨List.filter_sublist, ?_⟩,
    countAt_eq_countP hevents, countAt_add_up c⟩
  · rw [hevents]
    exact Emission.forall₂_shownBy emitted
  · rw [forClient_eq_map hevents]
    exact Emission.forall₂_shownBy _

/-- A clearing inside the scope of a client leaves what comes behind it to that client, in a detached scope too;
behind the scope there is no client. -/
example (i : Identity) (origin : String) (r : LogRecord) :
    (run [.scope (some i) [.emit origin r, .clear, .scope none [.emit origin r]], .emit origin r]).events =
      [r.event origin (some i.text), r.event origin none] := rfl

end Switchboard.LogCapture
