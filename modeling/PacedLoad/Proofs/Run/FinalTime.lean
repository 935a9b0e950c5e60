import PacedLoad.Proofs.Run.Asking
import PacedLoad.Proofs.Run.Ending
import PacedLoad.Proofs.Run.Progress

/-!
# The global completion time of a report

When a run ends well and none of its bodies broke off, all starts were completed
before the driver, which alone registers writers, asked for the time.  So the report
shows the start of the operation as many places from the end as there are writers,
or an earlier last report of a peer; it shows nothing if there is no operation and
no peer, or if a peer had not reported when the worker came to the driver's question.
-/

namespace PacedLoad

open Handler Watermark Outline

variable {β : Type} {config : Config} {now : Instant}
  {createLog : String → Except FileError Stats.Sink} {work : Work β} {shared : β}
  {operations : List (Except Rows.DecodingError Operation)} {s₀ s t u v : Run β}
  {choices earlier : List Choice} {c : Choice}

/-- Only a driver that waits for an answer has asked. -/
theorem Stage.readingTime_of_look {stage : Stage} {ticket : Nat}
    (asked : stage.look = .asked ticket) : stage = .readingTime ticket := by
  cases stage with
  | interrupt ending | clear ending | stopWatermark ending | stoppingWatermark ending
  | stopStats ending | stoppingStats ending | finished ending => cases ending <;> cases asked
  | _ => cases asked <;> rfl

namespace Outline

variable {o after : Outline β} {talk : Bool}

end Outline

namespace Run

/-- What holds when the worker has taken `letters`. -/
structure Standing (peers : List String) (least : Option Instant) (letters : List Letter)
    (s : Run β) : Prop where
  heeded : Heeded peers letters (s.outline [])
  final : s.stage.leg.isBroken = false → s.stage.station = .ending → Final least (s.outline [])
  asking : Asking peers least letters (s.outline []) s.stage.look

variable {peers : List String} {least : Option Instant} {letters : List Letter}

/-- A move of the worker. -/
theorem Standing.step_watermark (standing : Standing peers least letters s)
    (moved : s.step .watermark = some t)
    (good : t.stage.leg.isBroken = false → s.stage.leg.isBroken = false) :
    Standing peers least (letters ++ s.takenBy .watermark) t := by
  obtain ⟨stage, core⟩ := Run.step_watermark moved
  have final (fine : t.stage.leg.isBroken = false) (ended : t.stage.station = .ending) :
      Final least (t.outline []) := by
    have before := standing.final (good fine) (by rw [← stage]; exact ended)
    exact (before.step (step_outline [] moved)).congr ended rfl rfl rfl
  cases running : s.floor.watermark.core.isOpen with
  | true =>
    obtain ⟨m, rest, taken, delivery⟩ := delivery_of_step [] moved running
    rw [taken]
    refine ⟨standing.heeded.deliver delivery, final, ?_⟩
    rw [stage]
    refine standing.asking.deliver standing.heeded delivery fun ticket here => ?_
    have reading : s.stage = .readingTime ticket := Stage.readingTime_of_look here
    refine (standing.final ?_ ?_).unregistered delivery.running
    · rw [reading]
      rfl
    · rw [reading]
      rfl
  | false =>
    rw [Service.deliver_closed running] at core
    have taken : s.takenBy .watermark = [] := by simp [takenBy, running]
    rw [taken, List.append_nil]
    refine ⟨?_, final, ?_⟩
    · unfold Heeded
      simp only [outline, core]
      exact standing.heeded
    · have values : (t.outline []).answers = (s.outline []).answers :=
        congrArg (fun w => Cell.valueAt (PacedLoad.Service.cells w)) core
      have queue : (t.outline []).queue = (s.outline []).queue ++ [] := by
        rw [List.append_nil]
        exact congrArg PacedLoad.Service.queue core
      rw [stage]
      exact standing.asking.sent (congrArg PacedLoad.Service.worker core) values queue
        unread_nil

/-- A move of anybody else. -/
theorem Standing.step_other (standing : Standing peers least letters s)
    (moved : s.step c = some t) (other : c ≠ .watermark)
    (final : t.stage.leg.isBroken = false → t.stage.station = .ending →
      Final least (t.outline [])) :
    Standing peers least (letters ++ s.takenBy c) t := by
  have rests {more : List Letter} (queue : t.floor.watermark.core.queue =
      s.floor.watermark.core.queue ++ more) :
      (t.outline []).worker = (s.outline []).worker ∧
        (t.outline []).answers = (s.outline []).answers :=
    (step_outline [] moved).rests ⟨more, queue.symm⟩
  have taken : s.takenBy c = [] := by cases c <;> first | rfl | exact absurd rfl other
  rw [taken, List.append_nil]
  cases step_regards moved other with
  | keeps look quiet =>
    obtain ⟨more, queue, silent⟩ := quiet
    obtain ⟨worker, answers⟩ := rests queue
    refine ⟨standing.heeded.congr worker, final, ?_⟩
    rcases look with same | failing
    · rw [same]
      exact standing.asking.sent worker answers queue silent
    · rw [failing]
      exact .failing
  | asks here there running unanswered queue =>
    obtain ⟨worker, answers⟩ := rests queue
    refine ⟨standing.heeded.congr worker, final, ?_⟩
    have ahead := standing.asking
    rw [here] at ahead
    rw [there]
    exact Asking.asks ahead (standing.final (by rw [here]; rfl) (by rw [here]; rfl)) running
      unanswered worker answers queue
  | sees here there answered quiet =>
    obtain ⟨more, queue, silent⟩ := quiet
    obtain ⟨worker, answers⟩ := rests queue
    refine ⟨standing.heeded.congr worker, final, ?_⟩
    have asked := standing.asking
    rw [here] at asked
    rw [there]
    exact (Asking.sees asked answered).sent worker answers queue silent

/-- In every run whose bodies do not break off, the driver's question comes to what the letters
before it lead to. -/
theorem standing_of_run {ops : List Operation}
    (started : Run.start config now createLog work shared (ops.map .ok) = .ok s₀)
    (ran : s₀.steps choices = some s)
    (whole : ∀ c ∈ s₀.collected choices, Handler.brokenOff c.2 = false) :
    Standing config.peerIds (finalStart config.threadCount ops) (s₀.delivered choices) s := by
  refine steps_induct (P := fun earlier u => Standing config.peerIds
    (finalStart config.threadCount ops) (s₀.delivered earlier) u) ran ?_ ?_
  · obtain ⟨-, log, rfl⟩ := start_ok started
    exact ⟨fun _ => rfl, nofun, .ahead unread_nil⟩
  · intro earlier c u v part led moved standing
    rw [delivered_concat led moved]
    have coherent := coherent_of_run started led
    have good (fine : v.stage.leg.isBroken = false) : u.stage.leg.isBroken = false := by
      refine Bool.eq_false_iff.mpr fun broken => ?_
      have stepped : Account.Step (ops.map .ok) (u.account []) (v.account ([] ++ u.collectedBy c)) :=
        step_account coherent.fed moved
      cases fine.symm.trans (stepped.broken broken)
    have final (fine : v.stage.leg.isBroken = false) (ended : v.stage.station = .ending) :
        Final (finalStart config.threadCount ops) (v.outline []) := by
      by_cases on : u.stage.station = .ending
      · have before := standing.final (good fine) on
        exact (before.step (step_outline [] moved)).congr ended rfl rfl rfl
      · refine final_of_end started led moved on ended fine fun outcome member => ?_
        obtain ⟨later, rfl⟩ := part
        rw [List.append_assoc] at whole
        exact whole outcome ((collected_append s₀ earlier ([c] ++ later)).subset member)
    by_cases worker : c = .watermark
    · subst worker
      exact standing.step_watermark moved good
    · exact standing.step_other moved worker final

/-- The global completion time of a run that ends well, none of whose bodies broke off.  Without
peers it is the start of the operation as many places from the end as there are writers.  With peers
it is the least of that start and of what each peer last reported before the worker came to the only
question for the time; it is unknown if a peer had not reported, or if there is neither an operation
nor a peer. -/
theorem gct_of_run {ops : List Operation} {report : Report}
    (started : Run.start config now createLog work shared (ops.map .ok) = .ok s₀)
    (ran : s₀.steps choices = some s) (ended : s.result? = some (.ok report))
    (whole : ∀ c ∈ s₀.collected choices, Handler.brokenOff c.2 = false) :
    (config.peerIds = [] → report.gct = finalStart config.threadCount ops) ∧
      ∃ before ticket after, s₀.delivered choices = before ++ .request .read ticket :: after ∧
        Unread (before ++ after) ∧
        (report.gct = none ↔ (ops = [] ∧ config.peerIds = []) ∨
          ∃ p ∈ config.peerIds, reportedTimes (callsOf before) p = []) ∧
        ∀ gct, report.gct = some gct →
          IsLeast {t | finalStart config.threadCount ops = some t ∨
            ∃ p ∈ config.peerIds, (reportedTimes (callsOf before) p).getLast? = some t} gct := by
  have standing := standing_of_run started ran whole
  have asking := standing.asking
  rw [stage_of_result ended] at asking
  obtain ⟨ticket, state, asked, same⟩ := Asking.known asking
  obtain ⟨before, after, split, unread, led⟩ := asked.placed
  have recorded : Recorded config.peerIds (callsOf before) state := by
    simpa using (recorded_start config.peerIds).heeded led
  obtain ⟨unknown, least⟩ := asked.settled.globalCompletionTime recorded
  rw [finalStart_eq_none (config.threadCount_pos (start_ok started).1), ← same] at unknown
  rw [← same] at least
  refine ⟨fun alone => ?_, before, ticket, after, split, unread, unknown, least⟩
  rw [alone] at unknown least
  cases known : report.gct with
  | none =>
    obtain ⟨rfl, -⟩ | ⟨p, member, -⟩ := unknown.mp known
    · rfl
    · cases member
  | some gct =>
    obtain here | ⟨p, member, -⟩ := (least gct known).1
    · exact here.symm
    · cases member

/-- Two writers and a peer; failures are counted. -/
def duo : Config :=
  { single with threadCount := 2, abortOnFailure := false, peerIds := ["near"] }

/-- Three operations, of which `picky` fails two. -/
def trio : List Operation :=
  [⟨0, "write", .saturate 10, none, .null⟩, ⟨1, "read", .saturate 20, none, .null⟩,
    ⟨2, "read", .saturate 30, none, .null⟩]

/-- All operations are carried out.  The peer reports once before the driver asks for the time and
once after it was answered. -/
def trioChoices : List Choice :=
  enlist 1 ++ enlist 2 ++ List.replicate 8 (.driver false) ++ [.peer "near" (.saturate 15)] ++
    (List.range 3).flatMap (fun k => List.replicate 6 (.task k (.saturate (10 + 10 * k)))) ++
    List.replicate 7 (.driver false) ++ List.replicate 7 .watermark ++
    [.peer "near" (.saturate 40), .driver false, .driver false, .watermark, .watermark,
      .driver false, .driver false, .stats .first, .stats .first, .driver false, .driver false,
      .stats .first, .driver false]

/-- The peer's first report is the least. -/
theorem gct_of_run_trio : ∃ (s₀ s : Run Unit) (report : Report),
    Run.start duo .first (fun _ => .error (.other "")) picky () (trio.map .ok) = .ok s₀ ∧
      s₀.steps trioChoices = some s ∧ s.result? = some (.ok report) ∧
      (∀ c ∈ s₀.collected trioChoices, Handler.brokenOff c.2 = false) ∧
      report.gct = some (.saturate 15) ∧ report.failed = 2 ∧
      finalStart duo.threadCount trio = some (.saturate 20) ∧
      ∃ before ticket after,
        s₀.delivered trioChoices = before ++ .request .read ticket :: after ∧
          IsLeast {t | finalStart duo.threadCount trio = some t ∨
            ∃ p ∈ duo.peerIds, (reportedTimes (callsOf before) p).getLast? = some t}
              (.saturate 15) := by
  obtain ⟨s₀, s, report, started, ran, ended, whole, shown, failed⟩ :
      ∃ (s₀ s : Run Unit) (report : Report),
        Run.start duo .first (fun _ => .error (.other "")) picky () (trio.map .ok) = .ok s₀ ∧
          s₀.steps trioChoices = some s ∧ s.result? = some (.ok report) ∧
          (s₀.collected trioChoices).all (fun c => !Handler.brokenOff c.2) = true ∧
          report.gct = some (.saturate 15) ∧ report.failed = 2 :=
    ⟨_, _, _, rfl, rfl, rfl, rfl, rfl, rfl⟩
  have whole : ∀ c ∈ s₀.collected trioChoices, Handler.brokenOff c.2 = false := by
    simpa using whole
  obtain ⟨-, before, ticket, after, split, -, -, least⟩ := gct_of_run started ran ended whole
  exact ⟨s₀, s, report, started, ran, ended, whole, shown, failed, rfl, before, ticket, after,
    split, least _ shown⟩

end Run

end PacedLoad
