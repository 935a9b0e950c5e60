import Mathlib.Data.List.Nodup
import PacedLoad.Proofs.Entries
import PacedLoad.Proofs.Service.Traffic
import PacedLoad.Stats.Service
import PacedLoad.Watermark.Service

/-!
# What a service that stops has processed

The worker stops at a number.  All that was sent before the last message has been
processed by then, but an event that was only counted by then may be missing if
one that was counted later came in its place.
-/

namespace PacedLoad

namespace Closing

def reading? : Closing → Option (Nat × List Nat)
  | .informed expected early | .told expected early _ => some (expected, early)
  | _ => none

def isTold : Closing → Bool
  | .told .. => true
  | _ => false

end Closing

namespace Traffic

variable {σ ε ρ α : Type} {duty : Duty σ ε ρ α} {t u : Traffic σ ε ρ α}

/-! ## What is counted and sent -/

/-- Every submission is counted at most once, and then sent at most once. -/
structure Orderly (t : Traffic σ ε ρ α) : Prop where
  counts : t.service.counted = t.counted.length
  countedOnce : t.counted.Nodup
  sentOnce : (t.sent.map Prod.fst).Nodup
  /-- What was counted has got further than that. -/
  known : ∀ i ∈ t.counted, ∃ s, t.submissions[i]? = some s ∧
    s.passage ≠ .asking ∧ s.passage ≠ .counting
  sending : ∀ (i : Nat) (s : Submission ε), t.submissions[i]? = some s → s.passage = .sending →
    i ∈ t.counted
  gone : ∀ p ∈ t.sent, p.1 ∈ t.counted ∧ t.submissions[p.1]? = some ⟨p.2, .sent⟩

theorem orderly_start (state : σ) (journal : Journal) :
    (start state journal : Traffic σ ε ρ α).Orderly :=
  ⟨rfl, .nil, .nil, nofun, nofun, nofun⟩

/-- A move that leaves submissions alone. -/
theorem Orderly.congr (orderly : t.Orderly) (submissions : u.submissions = t.submissions)
    (counted : u.counted = t.counted) (sent : u.sent = t.sent)
    (count : u.service.counted = t.service.counted) : u.Orderly where
  counts := by rw [count, counted]; exact orderly.counts
  countedOnce := by rw [counted]; exact orderly.countedOnce
  sentOnce := by rw [sent]; exact orderly.sentOnce
  known := by rw [counted, submissions]; exact orderly.known
  sending := by rw [counted, submissions]; exact orderly.sending
  gone := by rw [counted, submissions, sent]; exact orderly.gone

theorem Orderly.arrive (orderly : t.Orderly) {s : Submission ε}
    (early : s.passage = .asking ∨ s.passage = .counting) :
    Orderly { t with submissions := t.submissions ++ [s] } where
  counts := orderly.counts
  countedOnce := orderly.countedOnce
  sentOnce := orderly.sentOnce
  known i member := by
    obtain ⟨s, found, further⟩ := orderly.known i member
    exact ⟨s, getElem?_append_some found, further⟩
  sending i s found here := by
    rcases getElem?_concat_some found with before | ⟨-, rfl⟩
    · exact orderly.sending i s before here
    · rw [here] at early
      rcases early with early | early <;> cases early
  gone p member := by
    obtain ⟨counted, found⟩ := orderly.gone p member
    exact ⟨counted, getElem?_append_some found⟩

/-- A submission that gets further without being sent. -/
theorem Orderly.pass (orderly : t.Orderly) {i : Nat} {s : Submission ε} {passage : Passage}
    (found : t.submissions[i]? = some s) (unsent : s.passage ≠ .sent)
    (further : i ∈ t.counted → passage ≠ .asking ∧ passage ≠ .counting)
    (sending : passage = .sending → i ∈ t.counted) : (t.pass i passage).Orderly where
  counts := orderly.counts
  countedOnce := orderly.countedOnce
  sentOnce := orderly.sentOnce
  known k member := by
    obtain ⟨s', found', further'⟩ := orderly.known k member
    by_cases here : i = k
    · subst here
      exact ⟨{ s' with passage }, by simp [Traffic.pass, found'], further member⟩
    · exact ⟨s', by simp [Traffic.pass, here, found'], further'⟩
  sending k s' found' here := by
    rcases getElem?_modify_some found' with ⟨rfl, s'', -, rfl⟩ | ⟨-, before⟩
    · exact sending here
    · exact orderly.sending k s' before here
  gone p member := by
    obtain ⟨counted, found'⟩ := orderly.gone p member
    have other : i ≠ p.1 := by
      rintro rfl
      cases found.symm.trans found'
      exact unsent rfl
    exact ⟨counted, by simp [Traffic.pass, other, found']⟩

theorem Orderly.count (orderly : t.Orderly) {i : Nat} {e : ε}
    (found : t.submissions[i]? = some ⟨e, .counting⟩) :
    Orderly { t.pass i .sending with service := t.service.count, counted := t.counted ++ [i] } := by
  have fresh : i ∉ t.counted := by
    intro member
    obtain ⟨s, found', -, further⟩ := orderly.known i member
    cases found.symm.trans found'
    exact further rfl
  refine ⟨?_, ?_, orderly.sentOnce, ?_, ?_, ?_⟩
  · simp [Service.count, orderly.counts]
  · exact orderly.countedOnce.append (List.nodup_singleton i) (by simpa using fresh)
  · intro k member
    rcases List.mem_append.mp member with before | new
    · obtain ⟨s, found', further⟩ := orderly.known k before
      have other : i ≠ k := by
        rintro rfl
        exact fresh before
      exact ⟨s, by simp [Traffic.pass, other, found'], further⟩
    · cases List.mem_singleton.mp new
      exact ⟨⟨e, .sending⟩, by simp [Traffic.pass, found], by simp, by simp⟩
  · intro k s found' here
    rcases getElem?_modify_some found' with ⟨rfl, -, -, -⟩ | ⟨-, before⟩
    · simp
    · exact List.mem_append_left _ (orderly.sending k s before here)
  · intro p member
    obtain ⟨counted, found'⟩ := orderly.gone p member
    have other : i ≠ p.1 := by
      rintro rfl
      exact fresh counted
    exact ⟨List.mem_append_left _ counted, by simp [Traffic.pass, other, found']⟩

theorem Orderly.send (orderly : t.Orderly) {i : Nat} {e : ε}
    (found : t.submissions[i]? = some ⟨e, .sending⟩) :
    Orderly { t.pass i .sent with
      service := { t.service with queue := t.service.queue ++ [.event e] }
      sent := t.sent ++ [(i, e)] } := by
  have counted : i ∈ t.counted := orderly.sending i _ found rfl
  have fresh : ∀ p ∈ t.sent, i ≠ p.1 := by
    rintro p member rfl
    cases found.symm.trans (orderly.gone p member).2
  refine ⟨orderly.counts, orderly.countedOnce, ?_, ?_, ?_, ?_⟩
  · rw [List.map_append]
    refine orderly.sentOnce.append (List.nodup_singleton i) ?_
    simpa using fun e' member => fresh (i, e') member rfl
  · intro k member
    obtain ⟨s, found', further⟩ := orderly.known k member
    by_cases here : i = k
    · subst here
      exact ⟨{ s with passage := .sent }, by simp [Traffic.pass, found'], nofun, nofun⟩
    · exact ⟨s, by simp [Traffic.pass, here, found'], further⟩
  · intro k s found' here
    rcases getElem?_modify_some found' with ⟨rfl, s', -, rfl⟩ | ⟨-, before⟩
    · cases here
    · exact orderly.sending k s before here
  · intro p member
    rcases List.mem_append.mp member with before | new
    · obtain ⟨counted', found'⟩ := orderly.gone p before
      exact ⟨counted', by simp [Traffic.pass, fresh p before, found']⟩
    · cases List.mem_singleton.mp new
      exact ⟨counted, by simp [Traffic.pass, found]⟩

theorem Orderly.step (orderly : t.Orderly) (step : Step duty t u) : u.Orderly := by
  cases step with
  | still => exact orderly
  | arrive early => exact orderly.arrive early
  | @letIn i e found =>
    have uncounted : i ∉ t.counted := by
      intro member
      obtain ⟨s, found', further, -⟩ := orderly.known i member
      cases found.symm.trans found'
      exact further rfl
    exact orderly.pass found nofun (fun member => absurd member uncounted) nofun
  | turnAway found unsent => exact orderly.pass found unsent (fun _ => ⟨nofun, nofun⟩) nofun
  | count found => exact orderly.count found
  | send found => exact orderly.send found
  | refuse | read | tell | unheard | ask => exact orderly.congr rfl rfl rfl rfl
  | deliver => exact orderly.congr rfl rfl rfl (Service.shared_deliver duty _ t.service t.journal).2

/-! ## What is queued -/

/-- What is queued was sent after what the worker has taken. -/
structure Lined (t : Traffic σ ε ρ α) : Prop where
  seen : t.service.worker.processed ≤ t.sent.length
  queued : t.service.isOpen = true → t.service.queue.filterMap Message.event? =
    (t.sent.drop t.service.worker.processed).map Prod.snd

theorem lined_start (state : σ) (journal : Journal) :
    (start state journal : Traffic σ ε ρ α).Lined :=
  ⟨Nat.le_refl _, fun _ => rfl⟩

/-- How many events are queued. -/
theorem Lined.length (lined : t.Lined) (running : t.service.isOpen = true) :
    t.service.worker.processed + (t.service.queue.filterMap Message.event?).length =
      t.sent.length := by
  have seen := lined.seen
  rw [lined.queued running, List.length_map, List.length_drop]
  omega

/-- A move that sends a message, or none. -/
theorem Lined.post (lined : t.Lined) (messages : List (Message ε ρ)) (more : List (Nat × ε))
    (worker : u.service.worker = t.service.worker)
    (queue : u.service.queue = t.service.queue ++ messages) (sent : u.sent = t.sent ++ more)
    (same : messages.filterMap Message.event? = more.map Prod.snd) : u.Lined := by
  have seen := lined.seen
  refine ⟨by rw [worker, sent, List.length_append]; omega, fun running => ?_⟩
  have running' : t.service.isOpen = true := by rwa [Service.isOpen, ← worker]
  rw [queue, worker, sent, List.filterMap_append, List.drop_append_of_le_length seen,
    List.map_append, lined.queued running', same]

theorem Lined.deliver {now : Instant} (lined : t.Lined)
    (after : u.service = (t.service.deliver duty now t.journal).1) (sent : u.sent = t.sent) :
    u.Lined := by
  cases running : t.service.isOpen with
  | false =>
    rw [Service.deliver_closed running] at after
    exact lined.post [] [] (by rw [after]) (by simp [after])
      (by simp [sent]) rfl
  | true =>
    cases oldest : t.service.queue with
    | nil =>
      rw [Service.deliver_nil duty now t.journal oldest] at after
      exact lined.post [] [] (by rw [after]) (by simp [after])
        (by simp [sent]) rfl
    | cons m rest =>
      obtain ⟨worker, queue⟩ := Service.deliver_cons duty now t.journal running oldest
      have count : u.service.worker.processed =
          t.service.worker.processed + m.event?.toList.length := by
        rw [after, worker, Worker.receive_processed]
      have queued := lined.queued running
      have length := lined.length running
      rw [oldest] at queued length
      refine ⟨?_, fun going => ?_⟩
      · rw [count, sent, ← length]
        cases known : m.event? <;> simp [known]
      · have left : u.service.queue = rest := by
          rw [after, Service.isOpen_iff, worker] at going
          rw [after, queue, if_pos going]
        rw [left, count, sent]
        cases known : m.event? with
        | none => simpa [known] using queued
        | some e =>
          rw [List.filterMap_cons, known] at queued
          have tail := congrArg List.tail queued
          simpa [← List.map_tail, List.tail_drop] using tail

theorem Lined.step (lined : t.Lined) (step : Step duty t u) : u.Lined := by
  cases step with
  | still | arrive | letIn | turnAway | count | refuse | read | unheard =>
    exact lined.post [] [] rfl (List.append_nil _).symm
      (List.append_nil _).symm rfl
  | @send i e => exact lined.post _ [(i, e)] rfl rfl rfl rfl
  | tell => exact lined.post _ [] rfl rfl (List.append_nil _).symm rfl
  | ask requests =>
    exact lined.post _ [] rfl rfl (List.append_nil _).symm
      (List.filterMap_eq_nil_iff.mpr fun m member => (requests m member).1)
  | deliver => exact lined.deliver rfl rfl

/-! ## What the worker is told -/

/-- One client at most stops the service, with the number of submissions that were counted. -/
structure Stopping (t : Traffic σ ε ρ α) : Prop where
  up : t.service.shuttingDown = false → t.closing = .up
  early : ∀ expected early, t.closing.reading? = some (expected, early) →
    expected = early.length ∧ early <+: t.counted
  untold : t.closing.isTold = false → t.service.lasts = []
  before : ∀ expected early before, t.closing = .told expected early before →
    before <+: t.sent.map Prod.fst
  running : ∀ expected early before, t.closing = .told expected early before →
    t.service.isOpen = true → t.service.Placed expected before.length
  complete : t.service.isComplete = true → ∃ expected early before,
    t.closing = .told expected early before ∧ expected ≤ t.service.worker.processed ∧
      before.length ≤ t.service.worker.processed

theorem stopping_start (state : σ) (journal : Journal) :
    (start state journal : Traffic σ ε ρ α).Stopping :=
  ⟨fun _ => rfl, nofun, fun _ => rfl, nofun, nofun, fun complete => by cases complete⟩

/-- A move that leaves the worker and the closing client alone. -/
theorem Stopping.post (stopping : t.Stopping) (messages : List (Message ε ρ))
    (closing : u.closing = t.closing) (worker : u.service.worker = t.service.worker)
    (shuttingDown : u.service.shuttingDown = t.service.shuttingDown)
    (queue : u.service.queue = t.service.queue ++ messages)
    (others : messages.filterMap Message.expected? = []) (counted : t.counted <+: u.counted)
    (sent : t.sent <+: u.sent) : u.Stopping := by
  refine ⟨?_, ?_, ?_, ?_, ?_, ?_⟩
  · rw [shuttingDown, closing]
    exact stopping.up
  · intro expected early known
    rw [closing] at known
    obtain ⟨count, before⟩ := stopping.early expected early known
    exact ⟨count, before.trans counted⟩
  · intro untold
    rw [closing] at untold
    have none := stopping.untold untold
    rw [Service.lasts] at none ⊢
    rw [worker, queue, List.filterMap_append, ← List.append_assoc, none, others]
    rfl
  · intro expected early before told
    rw [closing] at told
    exact (stopping.before expected early before told).trans (sent.map Prod.fst)
  · intro expected early before told running
    rw [closing] at told
    have running' : t.service.isOpen = true := by rwa [Service.isOpen, ← worker]
    exact (stopping.running expected early before told running').post worker queue others
  · intro done
    rw [closing, worker]
    exact stopping.complete (by rwa [Service.isComplete, ← worker])

/-- The last message is sent after all that was sent so far. -/
theorem Stopping.tell (stopping : t.Stopping) (lined : t.Lined) {expected : Nat}
    {early : List Nat} (here : t.closing = .informed expected early)
    (running : t.service.isOpen = true) :
    Stopping { t with
      service := { t.service with queue := t.service.queue ++ [.terminate expected] }
      closing := .told expected early (t.sent.map Prod.fst) } := by
  have none : t.service.lasts = [] := stopping.untold (by rw [here]; rfl)
  obtain ⟨untold, single⟩ := List.append_eq_nil_iff.mp none
  refine ⟨fun up => ?_, ?_, nofun, ?_, ?_, fun complete => ?_⟩
  · have up' := stopping.up up
    rw [here] at up'
    cases up'
  · rintro expected' early' ⟨⟩
    exact stopping.early expected early (by rw [here]; rfl)
  · rintro expected' early' before ⟨⟩
    exact List.prefix_rfl
  · rintro expected' early' before ⟨⟩ -
    refine .queued t.service.queue [] (by simpa using untold) rfl
      (by simpa using single) ?_
    rw [List.length_map]
    exact lined.length running
  · cases running.symm.trans (Service.isOpen_of_complete (s := t.service) complete)

theorem Stopping.deliver {now : Instant} {journal : Journal} (stopping : t.Stopping) :
    Stopping { t with service := (t.service.deliver duty now t.journal).1, journal := journal } := by
  cases running : t.service.isOpen with
  | false =>
    rw [Service.deliver_closed running]
    exact stopping.post [] rfl rfl rfl (List.append_nil _).symm rfl
      List.prefix_rfl List.prefix_rfl
  | true =>
    refine ⟨?_, stopping.early, fun untold => ?_, stopping.before, ?_, fun complete => ?_⟩
    · rw [(Service.shared_deliver duty now t.service t.journal).1]
      exact stopping.up
    · have fewer := Service.lasts_deliver duty now t.service t.journal
      rw [stopping.untold untold] at fewer
      exact List.eq_nil_of_length_eq_zero (Nat.le_zero.mp fewer)
    · intro expected early before told
      exact ((stopping.running expected early before told running).deliver duty now t.journal
        running).1
    · cases told : t.closing with
      | told expected early before =>
        exact ⟨expected, early, before, rfl, ((stopping.running expected early before told
          running).deliver duty now t.journal running).2 complete⟩
      | _ =>
        obtain ⟨n, expected, -⟩ := Service.complete_deliver running complete
        have fewer := Service.lasts_deliver duty now t.service t.journal
        rw [stopping.untold (by rw [told]; rfl)] at fewer
        simp [Service.lasts, expected] at fewer

theorem Stopping.step (stopping : t.Stopping) (orderly : t.Orderly) (lined : t.Lined)
    (step : Step duty t u) : u.Stopping := by
  cases step with
  | still => exact stopping
  | arrive | letIn | turnAway =>
    exact stopping.post [] rfl rfl rfl (List.append_nil _).symm rfl
      List.prefix_rfl List.prefix_rfl
  | count =>
    exact stopping.post [] rfl rfl rfl (List.append_nil _).symm rfl
      (List.prefix_append _ _) List.prefix_rfl
  | send =>
    exact stopping.post _ rfl rfl rfl rfl rfl List.prefix_rfl (List.prefix_append _ _)
  | refuse up =>
    have closing := stopping.up up
    refine ⟨nofun, nofun, fun _ => stopping.untold (by rw [closing]; rfl), nofun, nofun,
      fun complete => ?_⟩
    obtain ⟨expected, early, before, told, -⟩ := stopping.complete complete
    rw [closing] at told
    cases told
  | read here =>
    refine ⟨fun up => ?_, ?_, fun _ => stopping.untold (by rw [here]; rfl), nofun, nofun,
      fun complete => ?_⟩
    · have closing := stopping.up up
      rw [here] at closing
      cases closing
    · rintro expected early ⟨⟩
      exact ⟨orderly.counts, List.prefix_rfl⟩
    · obtain ⟨expected, early, before, told, -⟩ := stopping.complete complete
      rw [here] at told
      cases told
  | tell here running => exact stopping.tell lined here running
  | unheard here =>
    refine ⟨fun up => ?_, nofun, fun _ => stopping.untold (by rw [here]; rfl), nofun, nofun,
      fun complete => ?_⟩
    · have closing := stopping.up up
      rw [here] at closing
      cases closing
    · obtain ⟨expected, early, before, told, -⟩ := stopping.complete complete
      rw [here] at told
      cases told
  | ask requests =>
    exact stopping.post _ rfl rfl rfl rfl
      (List.filterMap_eq_nil_iff.mpr fun m member => (requests m member).2)
      List.prefix_rfl List.prefix_rfl
  | deliver => exact stopping.deliver

theorem invariants_moves {moves : List (Move ε ρ)} (before : t.Orderly ∧ t.Lined ∧ t.Stopping)
    (ran : t.moves duty moves = some u) : u.Orderly ∧ u.Lined ∧ u.Stopping := by
  induction moves generalizing t with
  | nil =>
    cases ran
    exact before
  | cons m rest ih =>
    obtain ⟨orderly, lined, stopping⟩ := before
    obtain ⟨next, moved, ran⟩ := Option.bind_eq_some_iff.mp ran
    have step := move_step moved
    exact ih ⟨orderly.step step, lined.step step, stopping.step orderly lined step⟩ ran

/-- What holds of the traffic of every service that was started. -/
theorem invariants {state : σ} {journal : Journal} {moves : List (Move ε ρ)}
    (ran : (start state journal).moves duty moves = some t) :
    t.Orderly ∧ t.Lined ∧ t.Stopping :=
  invariants_moves ⟨orderly_start state journal, lined_start state journal,
    stopping_start state journal⟩ ran

/-- Of two lists without repetition, the one that is not longer lacks nothing that the other has
no substitute for. -/
theorem missing_le_extra {early taken : List Nat} (once : early.Nodup) (once' : taken.Nodup)
    (enough : early.length ≤ taken.length) :
    (early.filter (· ∉ taken)).length ≤ (taken.filter (· ∉ early)).length := by
  have same : (early.filter (· ∈ taken)).length = (taken.filter (· ∈ early)).length := by
    refine List.Perm.length_eq ((List.perm_ext_iff_of_nodup (once.filter _) (once'.filter _)).mpr ?_)
    simp [and_comm]
  have first := List.length_eq_length_filter_add (l := early) (· ∈ taken)
  have second := List.length_eq_length_filter_add (l := taken) (· ∈ early)
  simp only [decide_not] at *
  omega

/-- When the worker is complete, it has processed all that was sent before the last message.  The
submissions that were counted when the count was looked at, but have not been processed, are no
more than those that were processed but counted later; so none is missing if nothing that was
counted later was processed. -/
theorem processed_of_complete {state : σ} {journal : Journal} {moves : List (Move ε ρ)}
    (ran : (start state journal).moves duty moves = some t)
    (complete : t.service.isComplete = true) :
    ∃ early before, t.closing = .told early.length early before ∧ before ⊆ t.processed ∧
      t.processed ⊆ t.counted ∧
      (early.filter (· ∉ t.processed)).length ≤ (t.processed.filter (· ∉ early)).length ∧
      (t.processed ⊆ early → early ⊆ t.processed) := by
  obtain ⟨orderly, lined, stopping⟩ := invariants ran
  obtain ⟨expected, early, before, told, enough, sent⟩ := stopping.complete complete
  obtain ⟨rfl, counted⟩ := stopping.early expected early (by rw [told]; rfl)
  have taken : t.processed = (t.sent.map Prod.fst).take t.service.worker.processed := by
    rw [processed, List.map_take]
  have once : t.processed.Nodup := by
    rw [taken]
    exact orderly.sentOnce.sublist (List.take_sublist _ _)
  have length : t.processed.length = t.service.worker.processed := by
    have seen := lined.seen
    rw [taken, List.length_take, List.length_map]
    omega
  have fewer : (early.filter (· ∉ t.processed)).length ≤
      (t.processed.filter (· ∉ early)).length :=
    missing_le_extra (orderly.countedOnce.sublist counted.sublist) once (by omega)
  refine ⟨early, before, told, ?_, ?_, fewer, fun inside i member => ?_⟩
  · have first := List.prefix_iff_eq_take.mp (stopping.before _ early before told)
    rw [first, taken]
    exact (List.take_prefix_take_left sent).subset
  · intro i member
    obtain ⟨p, place, rfl⟩ := List.mem_map.mp member
    exact (orderly.gone p (List.mem_of_mem_take place)).1
  · have none : t.processed.filter (· ∉ early) = [] :=
      List.filter_eq_nil_iff.mpr fun k taken => by simpa using inside taken
    rw [none] at fewer
    have all := List.filter_eq_nil_iff.mp
      (List.eq_nil_of_length_eq_zero (Nat.le_zero.mp fewer)) i member
    simpa using all

/-- Two clients come with events.  The first counts its event before the count is looked at, the
second one after that; the second event is sent first, and both are sent after the last message. -/
def overtaking (first second : ε) (guarded : Bool) : List (Move ε ρ) :=
  [.arrive first guarded, .arrive second guarded] ++ (if guarded then [.look 0, .look 1] else []) ++
    [.count 0, .refuse, .read, .tell, .count 1, .send 1, .send 0, .deliver .first, .deliver .first]

/-- A completion time service that hears of two peers. -/
def reports : Traffic Watermark.Coordinator Watermark.Event Watermark.Request Watermark.Answer :=
  start (.start ["p", "q"]) .empty

def overtakingReports : List (Move Watermark.Event Watermark.Request) :=
  overtaking (.external "p" .first) (.external "q" .first) false

theorem reports_run : ∃ t, reports.moves Watermark.duty overtakingReports = some t ∧
    t.service.isComplete = true ∧ t.closing = .told 1 [0] [] ∧ t.processed = [1] :=
  ⟨_, rfl, rfl, rfl, rfl⟩

def results : Traffic Stats.Collector OperationResult Stats.Request Stats.Answer :=
  start ⟨.start .first, .permissive .zero, true, none⟩ .empty

def overtakingResults : List (Move OperationResult Stats.Request) :=
  let result (id : Nat) : OperationResult :=
    ⟨⟨id, "read", .first, none, .null⟩, .first, .zero, 0, .null, false⟩
  overtaking (result 0) (result 1) true

theorem results_run : ∃ t, results.moves Stats.duty overtakingResults = some t ∧
    t.service.isComplete = true ∧ t.closing = .told 1 [0] [] ∧ t.processed = [1] :=
  ⟨_, rfl, rfl, rfl, rfl⟩

theorem processed_of_complete_reports :
    ∃ t, reports.moves Watermark.duty overtakingReports = some t ∧ t.service.isComplete = true ∧
      ∃ early before, t.closing = .told early.length early before ∧ before ⊆ t.processed ∧
        t.processed ⊆ t.counted ∧
        (early.filter (· ∉ t.processed)).length ≤ (t.processed.filter (· ∉ early)).length ∧
        (t.processed ⊆ early → early ⊆ t.processed) := by
  obtain ⟨t, ran, complete, -⟩ := reports_run
  exact ⟨t, ran, complete, processed_of_complete ran complete⟩

/-- Neither service has always processed what was counted when the count was looked at. -/
theorem complete_unprocessed :
    (¬ ∀ moves t, reports.moves Watermark.duty moves = some t → t.service.isComplete = true →
      ∀ expected early before, t.closing = .told expected early before → early ⊆ t.processed) ∧
    ¬ ∀ moves t, results.moves Stats.duty moves = some t → t.service.isComplete = true →
      ∀ expected early before, t.closing = .told expected early before → early ⊆ t.processed := by
  constructor
  · intro always
    obtain ⟨t, ran, complete, told, processed⟩ := reports_run
    have inside := always _ t ran complete 1 [0] [] told
    rw [processed] at inside
    exact absurd (inside List.mem_cons_self) (by decide)
  · intro always
    obtain ⟨t, ran, complete, told, processed⟩ := results_run
    have inside := always _ t ran complete 1 [0] [] told
    rw [processed] at inside
    exact absurd (inside List.mem_cons_self) (by decide)

end Traffic

end PacedLoad
