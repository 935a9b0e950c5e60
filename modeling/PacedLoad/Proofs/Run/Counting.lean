import PacedLoad.Proofs.Run.Correspondence
import PacedLoad.Proofs.Watermark.Counting

/-!
# Runs whose service counts copies

The service of a run keeps a board.  As long as the copies of a time can be counted, it
takes every letter of the driver and its handlers, and what it shows is decided by the
letters that it took.  Others may use the service as well, through other writers than
those of the driver.
-/

namespace PacedLoad

open Handler Watermark

variable {β : Type}

section Letters

variable {letters : List Letter} {w : Nat} {t : Instant}

theorem initiatedTimes_callsOf (letters : List Letter) (w : Nat) :
    initiatedTimes (callsOf letters) w =
      ((initiations letters).filter fun x => x.1 = w).map Prod.snd := by
  unfold initiatedTimes callsOf initiations
  rw [List.filterMap_filterMap, ← List.filterMap_eq_filter, List.filterMap_filterMap,
    ← List.filterMap_eq_map, List.filterMap_filterMap]
  refine List.filterMap_congr fun m _ => ?_
  rcases m with (⟨v, u⟩ | ⟨v, u⟩ | ⟨p, u⟩) | ⟨_ | _, ticket⟩ | n
  · by_cases same : v = w <;> simp [called, same, Option.guard]
  all_goals rfl

theorem completedTimes_callsOf (letters : List Letter) (w : Nat) :
    completedTimes (callsOf letters) w =
      ((completions letters).filter fun x => x.1 = w).map Prod.snd := by
  unfold completedTimes callsOf completions
  rw [List.filterMap_filterMap, ← List.filterMap_eq_filter, List.filterMap_filterMap,
    ← List.filterMap_eq_map, List.filterMap_filterMap]
  refine List.filterMap_congr fun m _ => ?_
  rcases m with (⟨v, u⟩ | ⟨v, u⟩ | ⟨p, u⟩) | ⟨_ | _, ticket⟩ | n
  · rfl
  · by_cases same : v = w <;> simp [called, same, Option.guard]
  all_goals rfl

/-- The times of one writer are counted in its places. -/
theorem count_times (places : List (Nat × Instant)) (w : Nat) (t : Instant) :
    ((places.filter fun x => x.1 = w).map Prod.snd).count t = places.count (w, t) := by
  induction places with
  | nil => rfl
  | cons x rest ih =>
    obtain ⟨v, u⟩ := x
    by_cases same : v = w
    · subst same
      rw [List.filter_cons_of_pos (by simp), List.map_cons, List.count_cons, List.count_cons, ih]
      simp
    · rw [List.filter_cons_of_neg (by simpa using same), ih, List.count_cons_of_ne]
      exact fun equal => same (Prod.mk.inj equal).1

end Letters

namespace Outline

variable {operations : List (Except Rows.DecodingError Operation)} {talk : Bool}

section Entries

variable {σ : Type} {o after : Outline β σ}

/-- All starts that were announced are in the order of the stream. -/
theorem Fed.entries_ascending (fed : Fed operations o) :
    (o.entries.map Entry.start).Pairwise (· ≤ ·) := by
  have jobs : (o.jobs.map entry).map Entry.start = o.jobs.map start := by
    rw [List.map_map]
    rfl
  rw [entries, List.map_append, jobs, List.pairwise_append]
  cases here : o.station with
  | submit op writer =>
    refine ⟨fed.ascending, List.pairwise_singleton _ _, fun s member t last => ?_⟩
    rw [List.mem_singleton.mp last]
    exact fed.latest (by simp [here, Station.pending]) member
  | _ => exact ⟨fed.ascending, .nil, fun _ _ _ none => absurd none List.not_mem_nil⟩

/-- The driver takes its writers from the answers of the worker. -/
theorem Step.writers [Bookkeeping σ] (step : Step talk o after) {w : Nat}
    (used : w ∈ after.writers) :
    w ∈ o.writers ∨ ∃ ticket, o.answers ticket = some (.writer w) := by
  cases step with
  | enrolled here answered =>
    rcases List.mem_append.mp used with before | new
    · exact .inl before
    · rw [List.mem_singleton.mp new]
      exact .inr ⟨_, answered⟩
  | _ => exact .inl used

/-- The driver gives no writer back. -/
theorem Step.writers_grow [Bookkeeping σ] (step : Step talk o after) {w : Nat}
    (used : w ∈ o.writers) : w ∈ after.writers := by
  cases step with
  | enrolled => exact List.mem_append_left _ used
  | _ => exact used

/-- Starts are announced with the writers of the driver. -/
theorem Step.places [Bookkeeping σ] (step : Step talk o after) (barred : Barred o)
    {x : Nat × Instant} (place : x ∈ after.initiated) : x ∈ o.initiated ∨ x.1 ∈ o.writers := by
  rw [step.initiated barred, List.mem_append] at place
  rcases place with before | new
  · exact .inl before
  · refine .inr ?_
    cases step with
    | announce here turn =>
      rw [show x = _ by simpa [post, initiations] using new]
      exact List.mem_of_getElem? turn
    | wind past running harmless =>
      rcases harmless with ⟨ticket, rfl⟩ | ⟨n, rfl⟩ <;> simp [post, initiations] at new
    | deliver running oldest =>
      dsimp only at new
      rw [oldest, drop_left] at new
      cases new
    | _ => simp [post, advance, initiations] at new

end Entries

variable {o after : Outline β Board} {peers : List String} {mine : Nat → Bool}
  {taken rest : List Letter} {m : Letter} {j : Journal}

/-- The worker knows a writer. -/
def Known (o : Outline β Board) (w : Nat) : Prop := w < o.worker.state.state.writers.length

/-- The worker keeps the board of the letters that it has taken, and of those that the driver and its
handlers have sent it has accepted all. -/
structure Counted (peers : List String) (mine : Nat → Bool) (taken : List Letter)
    (o : Outline β Board) : Prop where
  corresponds : Corresponds mine taken o
  shown : o.worker.state.Shown
  board : o.worker.state.state = (Board.start peers).replay (callsOf taken)
  used : ∀ w ∈ o.writers, Known o w
  answered : ∀ ticket w, o.answers ticket = some (.writer w) → Known o w
  placed : ∀ x ∈ o.initiated, Known o x.1
  heard : ∀ w, mine w = true →
    initiatedTimes ((Board.start peers).accepted (callsOf taken)) w =
        initiatedTimes (callsOf taken) w ∧
      completedTimes ((Board.start peers).accepted (callsOf taken)) w =
        completedTimes (callsOf taken) w

/-- Every step that takes no letter, as long as the driver uses writers that are `mine`. -/
theorem Counted.step (counted : Counted peers mine taken o)
    (sound : ∀ t ∈ o.jobs, t.phase.Sound) (step : Step talk o after)
    (grown : o.queue <+: after.queue) (own : ∀ w ∈ o.writers, mine w = true) :
    Counted peers mine taken after := by
  obtain ⟨worker, answers⟩ := step.rests grown
  have known {w : Nat} (before : Known o w) : Known after w := by
    rw [Known, worker]
    exact before
  refine ⟨counted.corresponds.step sound step grown own, ?_, ?_, fun w member => ?_,
    fun ticket w answer => ?_, fun x place => ?_, counted.heard⟩
  · rw [worker]
    exact counted.shown
  · rw [worker]
    exact counted.board
  · rcases step.writers member with before | ⟨ticket, answer⟩
    · exact known (counted.used w before)
    · exact known (counted.answered ticket w answer)
  · rw [answers] at answer
    exact known (counted.answered ticket w answer)
  · rcases step.places counted.corresponds.barred place with before | turn
    · exact known (counted.placed x before)
    · exact known (counted.used x.1 turn)

/-- A start that was announced with one of the driver's writers has its place. -/
theorem Counted.place (counted : Counted peers mine taken o) {before : List Letter} {w : Nat}
    {t : Instant} (own : mine w = true) (running : o.worker.phase = .running)
    (earlier : before <+: taken ++ o.queue) (there : (w, t) ∈ initiations before) :
    (w, t) ∈ o.initiated := by
  obtain ⟨rest, waiting, tells⟩ := counted.corresponds.tells
  rw [← waiting running] at earlier
  rw [initiated, ← tells.begun]
  exact (initiatedBy_mono earlier).subset (List.mem_filter.mpr ⟨there, own⟩)

/-- The worker accepts the oldest letter if one of the driver's writers has sent it. -/
theorem Counted.accepts (counted : Counted peers mine taken o) (fed : Fed operations o)
    (few : FewCopiesAt mine peers (callsOf taken)) (running : o.worker.phase = .running)
    {e : Watermark.Event} (oldest : o.queue = .event e :: rest) {w : Nat} {t : Instant}
    (own : mine w = true) (sent : e = .initiated w t ∨ e = .completed w t) :
    (o.worker.state.state.call (.announce e)).2 = .ok () := by
  have holds := Board.holds_of_few few own
  obtain ⟨left, waiting, tells⟩ := counted.corresponds.tells
  rw [waiting running, oldest] at tells
  have registered (place : (w, t) ∈ o.initiated) :
      w < writerCount ((Board.start peers).accepted (callsOf taken)) := by
    rw [← holds.registered, ← counted.board]
    exact counted.placed _ place
  rw [counted.board]
  obtain ⟨initiated, completed⟩ := counted.heard w own
  have next : taken ++ [.event e] <+: taken ++ .event e :: rest := ⟨rest, by simp⟩
  have earlier : taken ++ [.event e] <+: taken ++ o.queue := oldest ▸ next
  rcases sent with rfl | rfl
  · refine (Board.accepted_iff.trans (holds.initiated_iff peers)).mpr
      ⟨registered (counted.place own running earlier ?_), fun last known => ?_⟩
    · rw [initiations_append]
      exact List.mem_append_right _ (by simp [initiations])
    -- what the writer initiated before stands before this letter, and the starts ascend
    · rw [initiated, initiatedTimes_callsOf] at known
      obtain ⟨⟨v, u⟩, member, rfl⟩ := List.mem_map.mp (List.mem_of_getLast? known)
      obtain ⟨there, same⟩ := List.mem_filter.mp member
      obtain rfl : v = w := by simpa using same
      have ascending := fed.entries_ascending
      rw [show o.entries.map Entry.start = (o.entries.map Entry.place).map Prod.snd by
          rw [List.map_map]; rfl, ← tells.begun, initiatedBy_append, List.map_append,
        List.pairwise_append] at ascending
      refine ascending.2.2 u (List.mem_map_of_mem (List.mem_filter.mpr ⟨there, own⟩)) t ?_
      refine List.mem_map.mpr ⟨(v, t), List.mem_filter.mpr ⟨?_, own⟩, rfl⟩
      simp [initiations]
  · have balance := tells.count_le (t := t) next own
    have silent : initiations (taken ++ [.event (.completed w t)]) = initiations taken := by
      rw [initiations_append]
      exact List.append_nil _
    have one : (completions (taken ++ [.event (.completed w t)])).count (w, t) =
        (completions taken).count (w, t) + 1 := by
      rw [completions_append, List.count_append]
      simp [completions]
    rw [one, silent] at balance
    have positive : (w, t) ∈ initiations taken := List.count_pos_iff.mp (by omega)
    refine (Board.accepted_iff.trans (holds.completed_iff peers)).mpr
      ⟨registered (counted.place own running (List.prefix_append _ _) positive), ?_⟩
    rw [initiated, completed, initiatedTimes_callsOf, completedTimes_callsOf, count_times,
      count_times]
    omega

/-- If the oldest letter is a call through one of the driver's writers, it is accepted. -/
theorem Counted.heard_next (counted : Counted peers mine taken o) (fed : Fed operations o)
    (few : FewCopiesAt mine peers (callsOf taken)) (running : o.worker.phase = .running)
    (oldest : o.queue = m :: rest) {w : Nat} (own : mine w = true) :
    initiatedTimes (o.worker.state.state.accepted (callsOf [m])) w =
        initiatedTimes (callsOf [m]) w ∧
      completedTimes (o.worker.state.state.accepted (callsOf [m])) w =
        completedTimes (callsOf [m]) w := by
  cases made : called m with
  | none => simp [callsOf, made, Board.accepted]
  | some c =>
    have single : callsOf [m] = [c] := by simp [callsOf, made]
    rw [single, Board.accepted]
    cases answer : o.worker.state.state.call c with
    | mk next result =>
      cases result with
      | ok done => exact ⟨rfl, rfl⟩
      -- a refused letter is none of this writer's
      | error v =>
        have foreign (t : Instant) (e : Watermark.Event)
            (sent : e = .initiated w t ∨ e = .completed w t) : c ≠ .announce e := by
          rintro rfl
          have letter : m = .event e := by
            rcases m with e' | ⟨_ | _, ticket⟩ | n <;> cases made
            rfl
          have accepted := counted.accepts fed few running
            (letter ▸ oldest) own sent
          rw [answer] at accepted
          cases accepted
        rcases c with _ | (⟨u, t⟩ | ⟨u, t⟩ | ⟨p, t⟩)
        · exact ⟨rfl, rfl⟩
        · refine ⟨?_, rfl⟩
          have other : u ≠ w := fun same => foreign t _ (.inl (same ▸ rfl)) rfl
          simp [Board.accepted, initiatedTimes, other]
        · refine ⟨rfl, ?_⟩
          have other : u ≠ w := fun same => foreign t _ (.inr (same ▸ rfl)) rfl
          simp [Board.accepted, completedTimes, other]
        · exact ⟨rfl, rfl⟩

/-- The worker takes a letter. -/
theorem Counted.deliver (counted : Counted peers mine taken o) (fed : Fed operations o)
    (few : FewCopiesAt mine peers (callsOf taken)) (step : Step talk o after)
    (delivery : Delivery o m rest j after) : Counted peers mine (taken ++ [m]) after := by
  have entries : after.entries = o.entries := by
    rw [delivery.frame]
    rfl
  have writers : after.writers = o.writers := by rw [delivery.frame]
  have board : after.worker.state.state = o.worker.state.state.replay (callsOf [m]) := by
    rw [delivery.worker]
    exact receive_board m
  have known {w : Nat} (before : Known o w) : Known after w := by
    rw [Known, board]
    exact Nat.lt_of_lt_of_le before (Board.length_le_replay _ _)
  have calls : callsOf (taken ++ [m]) = callsOf taken ++ callsOf [m] := List.filterMap_append
  refine ⟨counted.corresponds.deliver step delivery entries, ?_, ?_, fun w member => ?_,
    fun ticket w answer => ?_, fun x place => ?_, fun w own => ?_⟩
  · rw [delivery.worker]
    exact receive_shown m counted.shown
  · rw [board, counted.board, calls, Board.replay_append]
  · rw [writers] at member
    exact known (counted.used w member)
  · rcases delivery.answers ticket _ answer with before | now
    · exact known (counted.answered ticket w before)
    · have registered := receive_board_answer now
      rw [← delivery.worker] at registered
      exact registered
  · rw [initiated, entries] at place
    exact known (counted.placed x place)
  · obtain ⟨initiated, completed⟩ := counted.heard w own
    have heard := counted.heard_next fed few delivery.running delivery.oldest own
    rw [calls, Board.accepted_append, ← counted.board]
    simp only [initiatedTimes, completedTimes, List.filterMap_append] at initiated completed heard ⊢
    rw [initiated, completed, heard.1, heard.2]
    exact ⟨rfl, rfl⟩

/-- What holds of a run when its worker has taken the letters `taken`. -/
structure Kept (operations : List (Except Rows.DecodingError Operation)) (peers : List String)
    (mine : Nat → Bool) (taken : List Letter) (o : Outline β Board) : Prop where
  fed : Fed operations o
  reported : Reported o
  counted : Counted peers mine taken o

theorem kept_first (config : Config) (work : Work β) (mine : Nat → Bool)
    (operations : List (Except Rows.DecodingError Operation)) :
    Kept operations config.peerIds mine [] (first config work operations) where
  fed := fed_first config work operations
  reported := reported_first config work operations
  counted := by
    refine ⟨⟨nofun, [], fun _ => rfl, tells_nil mine⟩, ?_, rfl, nofun, nofun, nofun,
      fun _ _ => ⟨rfl, rfl⟩⟩
    exact shown_start config.peerIds

end Outline

namespace Run

variable {operations : List (Except Rows.DecodingError Operation)} {peers : List String}
  {mine : Nat → Bool} {taken : List Letter} {told : List Sent} {s t : Run β Board} {c : Choice}
  {choices : List Choice}

/-- Every move keeps what holds, as long as the copies of a time can be counted. -/
theorem kept_step (kept : Outline.Kept operations peers mine taken (s.outline told))
    (own : ∀ w ∈ s.writers, mine w = true) (few : FewCopiesAt mine peers (callsOf taken))
    (moved : s.step c = some t) :
    Outline.Kept operations peers mine (taken ++ s.takenBy c)
      (t.outline (told ++ s.heardFrom t c)) := by
  have step := step_outline told moved
  refine ⟨kept.fed.step step, kept.reported.step step, ?_⟩
  have sound : ∀ t ∈ (s.outline told).jobs, t.phase.Sound := fun t member => by
    obtain ⟨k, found⟩ := List.getElem?_of_mem member
    exact kept.reported.sound k t found
  have silent (none : s.takenBy c = [])
      (grown : s.floor.watermark.core.queue <+: t.floor.watermark.core.queue) :
      Outline.Counted peers mine (taken ++ s.takenBy c) (t.outline (told ++ s.heardFrom t c)) := by
    rw [none, List.append_nil]
    exact kept.counted.step sound step grown own
  by_cases worker : c = .watermark
  · subst worker
    cases running : s.floor.watermark.core.isOpen with
    | true =>
      obtain ⟨m, rest, single, delivery⟩ := delivery_of_step told moved running
      rw [single]
      simp only [heardFrom, List.append_nil] at step ⊢
      exact kept.counted.deliver kept.fed few step delivery
    | false =>
      obtain ⟨-, core⟩ := step_watermark moved
      rw [Service.deliver_closed running] at core
      exact silent (by simp [takenBy, running]) ⟨[], by rw [core, List.append_nil]⟩
  · refine silent ?_ (step_regards moved worker).grown
    cases c <;> first | rfl | exact absurd rfl worker

theorem kept_of_steps (kept : Outline.Kept operations peers (fun _ => true) taken (s.outline told))
    (ran : s.steps choices = some t)
    (few : FewCopies peers (callsOf (taken ++ s.delivered choices))) :
    Outline.Kept operations peers (fun _ => true) (taken ++ s.delivered choices)
      (t.outline (told ++ s.told choices)) := by
  induction choices generalizing s taken told with
  | nil =>
    cases ran
    simpa [Run.told, delivered] using kept
  | cons c rest ih =>
    obtain ⟨u, moved, ran⟩ := Option.bind_eq_some_iff.mp ran
    simp only [Run.told, delivered, moved, ← List.append_assoc] at few ⊢
    refine ih (kept_step kept (fun _ _ => rfl) ((few.of_prefix ?_).at _) moved) ran few
    rw [List.append_assoc]
    exact (List.prefix_append _ _).filterMap called

/-- What holds of every run that was started. -/
theorem kept_of_run {config : Config} {now : Instant}
    {createLog : String → Except FileError Stats.Sink} {work : Work β} {shared : β}
    {s₀ : Run β Board} (started : Run.start config now createLog work shared operations = .ok s₀)
    (ran : s₀.steps choices = some s)
    (few : FewCopies config.peerIds (callsOf (s₀.delivered choices))) :
    Outline.Kept operations config.peerIds (fun _ => true) (s₀.delivered choices)
      (s.outline (s₀.told choices)) := by
  have first : Outline.Kept operations config.peerIds (fun _ => true) [] (s₀.outline []) := by
    rw [(start_outline started).2]
    exact Outline.kept_first config work _ operations
  simpa using kept_of_steps first ran (by simpa using few)

end Run

end PacedLoad
