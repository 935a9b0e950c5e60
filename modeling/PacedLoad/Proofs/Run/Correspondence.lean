import PacedLoad.Proofs.Run.Coherence
import PacedLoad.Proofs.Run.Letters
import PacedLoad.Proofs.Watermark.Ledger

/-!
# What the letters of a run tell of its jobs

The letters that were sent, taken by the worker or not, tell of the jobs in order:
the `i`-th initiation is that of the `i`-th job, and a completion is sent only for a
job whose initiation was sent before and that is done.  This holds of the letters of
the driver and its handlers whatever others send through writers of their own.
-/

namespace PacedLoad

open Handler Watermark

variable {β σ : Type}

section Letters

variable {mine : Nat → Bool} {sent before : List Letter} {entries : List Entry} {m : Letter}
  {w k : Nat} {t : Instant}

theorem initiations_append (first second : List Letter) :
    initiations (first ++ second) = initiations first ++ initiations second :=
  List.filterMap_append

theorem completions_append (first second : List Letter) :
    completions (first ++ second) = completions first ++ completions second :=
  List.filterMap_append

def initiatedBy (mine : Nat → Bool) (letters : List Letter) : List (Nat × Instant) :=
  (initiations letters).filter fun x => mine x.1

theorem initiatedBy_append (first second : List Letter) :
    initiatedBy mine (first ++ second) = initiatedBy mine first ++ initiatedBy mine second := by
  rw [initiatedBy, initiations_append, List.filter_append]
  rfl

theorem initiatedBy_mono (earlier : before <+: sent) :
    initiatedBy mine before <+: initiatedBy mine sent := by
  obtain ⟨later, rfl⟩ := earlier
  exact ⟨_, (initiatedBy_append before later).symm⟩

theorem count_initiatedBy (own : mine w = true) (letters : List Letter) :
    (initiatedBy mine letters).count (w, t) = (initiations letters).count (w, t) :=
  List.count_filter own

def Watermark.Entry.place (e : Entry) : Nat × Instant := (e.writer, e.start)

/-- The letters `sent` tell of the entries, as far as they come from writers that are `mine`. -/
structure Tells (mine : Nat → Bool) (sent : List Letter) (entries : List Entry) : Prop where
  begun : initiatedBy mine sent = entries.map Entry.place
  /-- What is completed up to some letter is done, and was initiated before that letter. -/
  ended : ∀ before, before <+: sent → ∀ w t, mine w = true →
    (completions before).count (w, t) ≤
      (entries.take (initiatedBy mine before).length).count ⟨w, t, true⟩

theorem tells_nil (mine : Nat → Bool) : Tells mine [] [] where
  begun := rfl
  ended before earlier w t _ := by
    rw [List.prefix_nil.mp earlier]
    exact Nat.le_refl 0

/-- A letter that none of these writers sends. -/
theorem Tells.silent (tells : Tells mine sent entries) (initiates : initiatedBy mine [m] = [])
    (completes : ∀ w t, mine w = true → m ≠ .event (.completed w t)) :
    Tells mine (sent ++ [m]) entries where
  begun := by rw [initiatedBy_append, initiates, List.append_nil, tells.begun]
  ended before earlier w t own := by
    rcases List.prefix_concat_iff.mp earlier with rfl | earlier
    · have none : (completions [m]).count (w, t) = 0 := by
        refine List.count_eq_zero.mpr fun member => ?_
        obtain ⟨m', single, same⟩ := List.mem_filterMap.mp member
        rw [List.mem_singleton.mp single] at same
        split at same <;> cases same
        exact completes w t own rfl
      have all := tells.ended sent List.prefix_rfl w t own
      rw [completions_append, List.count_append, none, initiatedBy_append, initiates,
        List.append_nil]
      exact all
    · exact tells.ended before earlier w t own

theorem Tells.initiate (tells : Tells mine sent entries) (own : mine w = true) :
    Tells mine (sent ++ [.event (.initiated w t)]) (entries ++ [⟨w, t, false⟩]) := by
  have single : initiatedBy mine [.event (.initiated w t)] = [(w, t)] := by
    simp [initiatedBy, initiations, own]
  refine ⟨?_, fun before earlier v u ours => ?_⟩
  · rw [initiatedBy_append, single, tells.begun, List.map_append]
    rfl
  · have longer (n : Nat) : (entries.take n).count (Entry.mk v u true) ≤
        ((entries ++ [Entry.mk w t false]).take n).count ⟨v, u, true⟩ := by
      rw [List.take_append, List.count_append]
      exact Nat.le_add_right _ _
    rcases List.prefix_concat_iff.mp earlier with rfl | earlier
    · have all := tells.ended sent List.prefix_rfl v u ours
      have length : (initiatedBy mine sent).length = entries.length := by
        rw [tells.begun, List.length_map]
      rw [length, List.take_length] at all
      rw [initiatedBy_append, single, List.length_append, length, List.length_singleton,
        List.take_of_length_le (by simp), List.count_append, completions_append]
      exact Nat.le_add_right_of_le (by simpa [completions] using all)
    · exact (tells.ended before earlier v u ours).trans (longer _)

/-- Marking an entry as done takes nothing from what is done. -/
theorem count_take_set (here : entries[k]? = some ⟨w, t, false⟩) (n v : Nat) (u : Instant) :
    ((entries.set k ⟨w, t, true⟩).take n).count ⟨v, u, true⟩ =
      (entries.take n).count ⟨v, u, true⟩ + if k < n ∧ (w, t) = (v, u) then 1 else 0 := by
  obtain ⟨inside, same⟩ := List.getElem?_eq_some_iff.mp here
  rw [List.take_set]
  by_cases within : k < n
  · have inside' : k < (entries.take n).length := by
      rw [List.length_take]
      omega
    have same' : (entries.take n)[k] = ⟨w, t, false⟩ := by rw [List.getElem_take, same]
    rw [List.count_set inside', same']
    by_cases equal : (w, t) = (v, u)
    · cases equal
      simp [within]
    · have other : ¬ (w = v ∧ t = u) := fun both => equal (by rw [both.1, both.2])
      simp [other]
  · rw [List.set_eq_of_length_le (by rw [List.length_take]; omega), if_neg fun both => within both.1]
    rfl

theorem Tells.complete (tells : Tells mine sent entries)
    (here : entries[k]? = some ⟨w, t, false⟩) :
    Tells mine (sent ++ [.event (.completed w t)]) (entries.set k ⟨w, t, true⟩) := by
  obtain ⟨inside, same⟩ := List.getElem?_eq_some_iff.mp here
  have silent : initiatedBy mine [.event (.completed w t)] = [] := rfl
  refine ⟨?_, fun before earlier v u own => ?_⟩
  · have kept : (entries.set k ⟨w, t, true⟩).map Entry.place = entries.map Entry.place := by
      rw [List.map_set]
      refine set_of_getElem? ?_
      rw [List.getElem?_map, here]
      rfl
    rw [initiatedBy_append, silent, List.append_nil, tells.begun, kept]
  · rw [count_take_set here]
    rcases List.prefix_concat_iff.mp earlier with rfl | earlier
    · have all := tells.ended sent List.prefix_rfl v u own
      have length : (initiatedBy mine sent).length = entries.length := by
        rw [tells.begun, List.length_map]
      rw [initiatedBy_append, silent, List.append_nil, completions_append, List.count_append,
        length]
      rw [length] at all
      have one : (completions [.event (.completed w t)]).count (v, u) =
          if (w, t) = (v, u) then 1 else 0 := by
        simp [completions, List.count_singleton]
      rw [one]
      simp only [inside, true_and]
      omega
    · exact (tells.ended before earlier v u own).trans (Nat.le_add_right _ _)

/-- The first of the entries are those that were initiated up to some letter. -/
theorem Tells.map_take (tells : Tells mine sent entries) (earlier : before <+: sent) :
    (entries.take (initiatedBy mine before).length).map Entry.place = initiatedBy mine before := by
  have first : initiatedBy mine before <+: initiatedBy mine sent := initiatedBy_mono earlier
  rw [tells.begun] at first
  rw [List.map_take]
  exact (List.prefix_iff_eq_take.mp first).symm

/-- Entries of one start, done or not. -/
theorem count_place (entries : List Entry) (w : Nat) (t : Instant) :
    (entries.map Entry.place).count (w, t) =
      entries.count ⟨w, t, true⟩ + entries.count ⟨w, t, false⟩ := by
  induction entries with
  | nil => rfl
  | cons e rest ih =>
    obtain ⟨v, u, done⟩ := e
    rw [List.map_cons, List.count_cons, List.count_cons, List.count_cons, ih]
    by_cases same : (v, u) = (w, t)
    · cases same
      cases done <;> simp [Entry.place] <;> omega
    · have other : ¬ (v = w ∧ u = t) := fun both => same (by rw [both.1, both.2])
      have different : ¬ (Entry.mk v u done).place = (w, t) := same
      cases done <;> simp [other, different]

/-- Up to any letter, a start was initiated at least as often as it was completed, and more often if
an entry that was initiated is still open. -/
theorem Tells.count_le (tells : Tells mine sent entries) (earlier : before <+: sent)
    (own : mine w = true) :
    (completions before).count (w, t) +
        (entries.take (initiatedBy mine before).length).count ⟨w, t, false⟩ ≤
      (initiations before).count (w, t) := by
  have ended := tells.ended before earlier w t own
  have places := count_place (entries.take (initiatedBy mine before).length) w t
  rw [tells.map_take earlier, count_initiatedBy own] at places
  omega

end Letters

namespace Outline

section Jobs

variable {o after : Outline β σ} {talk : Bool}

def initiated (o : Outline β σ) : List (Nat × Instant) :=
  o.entries.map Entry.place

/-- A change of a job's phase initiates nothing. -/
theorem initiated_advance (o : Outline β σ) (k : Nat) (phase : Phase) :
    (o.advance k phase).initiated = o.initiated := by
  have jobs := advance_map (f := fun t => (entry t).place) (fun _ _ => rfl) o k
    phase
  simp only [initiated, entries, List.map_append, List.map_map]
  exact congrArg (· ++ _) jobs

/-- A step that initiates nothing may send other letters. -/
theorem initiated_silent {more : List Letter} (same : after.initiated = o.initiated)
    (queue : after.queue = o.queue ++ more) (silent : initiations more = []) :
    after.initiated = o.initiated ++ initiations (after.queue.drop o.queue.length) := by
  rw [same, queue, List.drop_left, silent, List.append_nil]

/-- What a step initiates is sent. -/
theorem Step.initiated [Bookkeeping σ] (step : Step talk o after) (barred : Barred o) :
    after.initiated = o.initiated ++ initiations (after.queue.drop o.queue.length) := by
  have still : o.queue = o.queue ++ [] := (List.append_nil _).symm
  cases step with
  | announce here =>
    simp [Outline.initiated, entries, post, here, Station.announced, initiations, Entry.place]
  | submit here =>
    refine initiated_silent ?_ still rfl
    simp [Outline.initiated, entries, here, Station.announced, entry, start, Entry.place]
  | pull here | known here | enrolled here =>
    refine initiated_silent ?_ still rfl
    simp [Outline.initiated, entries, here, Station.announced]
  | ask here =>
    refine initiated_silent ?_ rfl rfl
    simp [Outline.initiated, entries, post, here, Station.announced]
  | ends given =>
    exact initiated_silent (congrArg (List.map _) (barred.entries_ends given)) still rfl
  | wind past running harmless =>
    rcases harmless with ⟨ticket, rfl⟩ | ⟨n, rfl⟩ <;> exact initiated_silent rfl rfl rfl
  | answer | refused | interruption =>
    exact initiated_silent (initiated_advance o _ _) still rfl
  | complete => exact initiated_silent (initiated_advance o _ _) rfl rfl
  | @deliver m rest j answers running oldest =>
    dsimp only
    rw [oldest, drop_left]
    exact (List.append_nil _).symm
  | still | close => exact initiated_silent rfl still rfl
  | peer => exact initiated_silent rfl rfl rfl

/-- The letters that the worker has taken, and those that wait for it or were left behind, tell of the
jobs. -/
structure Corresponds (mine : Nat → Bool) (taken : List Letter) (o : Outline β σ) : Prop where
  barred : Barred o
  tells : ∃ rest, (o.worker.phase = .running → rest = o.queue) ∧
    Tells mine (taken ++ rest) o.entries

variable {mine : Nat → Bool} {taken rest : List Letter} {m : Letter} {j : Journal}

/-- A step that neither sends nor takes a letter and leaves what was announced alone. -/
theorem Corresponds.congr (corresponds : Corresponds mine taken o) (barred : Barred after)
    (worker : after.worker = o.worker) (queue : after.queue = o.queue)
    (entries : after.entries = o.entries) : Corresponds mine taken after where
  barred := barred
  tells := by
    rw [worker, queue, entries]
    exact corresponds.tells

/-- A step that sends a letter. -/
theorem Corresponds.posted (corresponds : Corresponds mine taken o) (barred : Barred after)
    (running : o.worker.phase = .running) (queue : after.queue = o.queue ++ [m])
    (told : ∀ sent, Tells mine sent o.entries → Tells mine (sent ++ [m]) after.entries) :
    Corresponds mine taken after where
  barred := barred
  tells := by
    obtain ⟨rest, waiting, tells⟩ := corresponds.tells
    refine ⟨rest ++ [m], fun _ => by rw [waiting running, queue], ?_⟩
    rw [← List.append_assoc]
    exact told _ tells

/-- A letter that says nothing of a start. -/
theorem Corresponds.silent (corresponds : Corresponds mine taken o) (barred : Barred after)
    (running : o.worker.phase = .running) (queue : after.queue = o.queue ++ [m])
    (entries : after.entries = o.entries) (initiates : ∀ w t, mine w = true →
      m ≠ .event (.initiated w t) ∧ m ≠ .event (.completed w t)) : Corresponds mine taken after := by
  refine corresponds.posted barred running queue fun sent tells => ?_
  rw [entries]
  refine tells.silent ?_ fun w t own => (initiates w t own).2
  refine List.filter_eq_nil_iff.mpr fun x member own => ?_
  obtain ⟨m', single, same⟩ := List.mem_filterMap.mp member
  rw [List.mem_singleton.mp single] at same
  split at same <;> cases same
  exact (initiates _ _ own).1 rfl

/-- Every step that takes no letter, as long as the driver uses writers that are `mine`. -/
theorem Corresponds.step [Bookkeeping σ] (corresponds : Corresponds mine taken o)
    (sound : ∀ t ∈ o.jobs, t.phase.Sound) (step : Step talk o after)
    (grown : o.queue <+: after.queue) (own : ∀ w ∈ o.writers, mine w = true) :
    Corresponds mine taken after := by
  have barred := corresponds.barred.step step
  cases step with
  | still => exact corresponds
  | pull here | known here | enrolled here =>
    exact corresponds.congr barred rfl rfl (by simp [entries, here, Station.announced])
  | ask here turn running =>
    refine corresponds.silent barred running rfl ?_ fun _ _ _ => by simp
    simp [entries, here, Station.announced, post]
  | @announce op writer here turn running =>
    refine corresponds.posted barred running rfl fun sent tells => ?_
    have more : ({ o.post (.event (.initiated writer op.scheduledStart)) with
        station := .submit op writer } : Outline β σ).entries =
          o.entries ++ [⟨writer, op.scheduledStart, false⟩] := by
      simp [entries, here, Station.announced, post]
    rw [more]
    exact tells.initiate (own writer (List.mem_of_getElem? turn))
  | submit here =>
    refine corresponds.congr barred rfl rfl ?_
    simp [entries, here, Station.announced, entry, start, Phase.completed]
  | ends given =>
    exact corresponds.congr barred rfl rfl (corresponds.barred.entries_ends given)
  | close => exact corresponds.congr barred rfl rfl rfl
  | wind past running harmless =>
    refine corresponds.silent barred running rfl rfl fun _ _ _ => ?_
    rcases harmless with ⟨ticket, rfl⟩ | ⟨n, rfl⟩ <;> simp
  | answer found needs answers =>
    exact corresponds.congr barred rfl rfl
      (congrArg (· ++ _) (advance_entry found (answer_open needs answers)))
  | @complete k t found needs running =>
    have before := Phase.completed_of_not_finished (Phase.isFinished_of_need needs)
    have complete : (t.phase.next t.operation o.tolerated (.submission (.ok ()))).completed = true :=
      Phase.completed_accepted (sound t (List.mem_of_getElem? found)) needs
    refine corresponds.posted barred running rfl fun sent tells => ?_
    have changed := tells.complete (entries_open found before)
    rw [← entries_complete found complete] at changed
    exact changed
  | refused found needs =>
    refine corresponds.congr barred rfl rfl (congrArg (· ++ _) (advance_entry found ?_))
    rw [Phase.next_refused needs,
      Phase.completed_of_not_finished (Phase.isFinished_of_need needs)]
    rfl
  | interruption found closing interruptible =>
    refine corresponds.congr barred rfl rfl (congrArg (· ++ _) (advance_entry found ?_))
    rw [interruptible_open interruptible]
    rfl
  | deliver running oldest =>
    rw [oldest] at grown
    exact absurd grown (not_prefix_left _ _)
  | peer talks running =>
    exact corresponds.silent barred running rfl rfl fun _ _ _ => by simp

/-- The worker takes a letter. -/
theorem Corresponds.deliver [Bookkeeping σ] (corresponds : Corresponds mine taken o)
    (step : Step talk o after) (delivery : Delivery o m rest j after)
    (entries : after.entries = o.entries) : Corresponds mine (taken ++ [m]) after where
  barred := corresponds.barred.step step
  tells := by
    obtain ⟨left, waiting, tells⟩ := corresponds.tells
    rw [waiting delivery.running, delivery.oldest] at tells
    refine ⟨rest, fun running => ?_, ?_⟩
    · rw [delivery.queue, if_pos running]
    · rw [entries, List.append_assoc]
      exact tells

end Jobs

end Outline

namespace Run

variable [Bookkeeping σ] {config : Config} {now : Instant}
  {createLog : String → Except FileError Stats.Sink} {work : Work β} {shared : β}
  {operations : List (Except Rows.DecodingError Operation)} {s₀ s t : Run β σ}
  {choices : List Choice}

theorem initiated_of_steps {told : List Sent} (barred : Outline.Barred (s.outline told))
    (ran : s.steps choices = some t) :
    (t.outline (told ++ s.told choices)).initiated =
      (s.outline told).initiated ++ s.initiated choices := by
  induction choices generalizing s told with
  | nil =>
    cases ran
    simp [Run.told, initiated]
  | cons c rest ih =>
    obtain ⟨u, moved, ran⟩ := Option.bind_eq_some_iff.mp ran
    have step := step_outline told moved
    have later := ih (barred.step step) ran
    rw [step.initiated barred, List.append_assoc] at later
    simpa [Run.told, initiated, moved, outline, List.append_assoc] using later

/-- What a run has initiated, read off its jobs. -/
theorem initiated_of_run
    (started : Run.start config now createLog work shared operations = .ok s₀)
    (ran : s₀.steps choices = some s) :
    (s.outline (s₀.told choices)).initiated = s₀.initiated choices := by
  have first := (start_outline started).2
  have barred : Outline.Barred (s₀.outline []) := by
    rw [first]
    exact nofun
  have all := initiated_of_steps barred ran
  rw [first] at all
  simpa [Outline.initiated, Outline.entries, Outline.first, Station.announced] using all

end Run

end PacedLoad
