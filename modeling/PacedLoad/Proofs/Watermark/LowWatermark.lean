import PacedLoad.Proofs.Watermark.History
import PacedLoad.Proofs.Watermark.Service

/-!
# The global completion time is the exact low watermark

What the accepted calls say about the global completion time: when it is
unknown, what it promises when it is known, and that no later time would promise
the same.  Any peers may be declared, and any calls made, refused ones included.
-/

namespace PacedLoad.Watermark

/-- Some source is unknown, or there is none: a peer has not reported, a writer has initiated
nothing, or a writer has the first instant outstanding. -/
def Unknown (peers : List String) (h : List Call) : Prop :=
  (writerCount h = 0 ∧ peers = []) ∨
    (∃ p ∈ peers, reportedTimes h p = []) ∨
    (∃ w < writerCount h, initiatedTimes h w = []) ∨
    ∃ w, 0 < copiesLeft h w Instant.first

/-- A time that is not above the last report of a peer or the last initiated time of a writer,
and lies below all that is outstanding. -/
structure Bounded (peers : List String) (h : List Call) (v : Instant) : Prop where
  reported : ∀ p ∈ peers, ∀ r, (reportedTimes h p).getLast? = some r → v ≤ r
  initiated : ∀ w last, (initiatedTimes h w).getLast? = some last → v ≤ last
  outstanding : ∀ w t, 0 < copiesLeft h w t → v < t

/-- What a known global completion time promises after the calls `h` have led to `s`. -/
structure LowWatermark (peers : List String) (h : List Call) (s : State) (gct : Instant) :
    Prop where
  /-- All copies of what was initiated up to it are completed. -/
  completed : ∀ w, ∀ t ∈ initiatedTimes h w, t ≤ gct →
    (completedTimes h w).count t = (initiatedTimes h w).count t
  /-- Nothing below it can still be initiated. -/
  initiable : ∀ w t after, s.initiated w t = .ok after → gct ≤ t
  /-- Every declared peer has reported, and no last report is below it. -/
  reported : ∀ p ∈ peers, ∃ r, (reportedTimes h p).getLast? = some r ∧ gct ≤ r
  greatest : IsGreatest {v | Bounded peers h v} gct

namespace Recorded

variable {peers : List String} {h : List Call} {s : State}

theorem mem_peers (recorded : Recorded peers h s) {p : String} {v : Option Instant} :
    (p, v) ∈ s.peers ↔ p ∈ peers ∧ v = (reportedTimes h p).getLast? := by
  have found := recorded.peer p
  constructor
  · intro member
    rw [Keyed.find?_of_mem recorded.sorted member] at found
    split at found
    next declared => exact ⟨declared, Option.some.inj found⟩
    next => cases found
  · rintro ⟨declared, rfl⟩
    rw [if_pos declared] at found
    exact Keyed.mem_of_find? found

theorem peers_eq_nil (recorded : Recorded peers h s) : s.peers = [] ↔ peers = [] := by
  constructor
  · intro empty
    refine List.eq_nil_iff_forall_not_mem.mpr fun p declared => ?_
    have member := recorded.mem_peers.mpr ⟨declared, rfl⟩
    rw [empty] at member
    cases member
  · rintro rfl
    refine List.eq_nil_iff_forall_not_mem.mpr fun e member => ?_
    cases (recorded.mem_peers.mp member).1

/-- A copy is left exactly where the writer has it outstanding. -/
theorem copiesLeft_pos (recorded : Recorded peers h s) {w : Nat} {t : Instant} :
    0 < copiesLeft h w t ↔ ∃ writer, s.writers[w]? = some writer ∧ t ∈ writer.outstanding := by
  cases found : s.writers[w]? with
  | none =>
    obtain ⟨noneInitiated, -⟩ := recorded.absent w (List.getElem?_eq_none_iff.mp found)
    simp [copiesLeft, noneInitiated]
  | some writer =>
    rw [(recorded.writer w writer found).copiesLeft, List.count_pos_iff]
    simp

/-- A writer's completion time is unknown exactly if it has initiated nothing or has the first
instant outstanding. -/
theorem writer_unknown (recorded : Recorded peers h s) :
    (∃ writer ∈ s.writers, writer.completionTime = none) ↔
      (∃ w < writerCount h, initiatedTimes h w = []) ∨
        ∃ w, 0 < copiesLeft h w Instant.first := by
  constructor
  · rintro ⟨writer, member, unknown⟩
    obtain ⟨w, found⟩ := List.mem_iff_getElem?.mp member
    have here := recorded.writer w writer found
    rcases (Writer.completionTime_eq_none here.ordered).mp unknown with idle | first
    · rw [here.last, List.getLast?_eq_none_iff] at idle
      have inside := (List.getElem?_eq_some_iff.mp found).1
      exact .inl ⟨w, recorded.registered ▸ inside, idle⟩
    · exact .inr ⟨w, recorded.copiesLeft_pos.mpr ⟨writer, found, first⟩⟩
  · rintro (⟨w, inside, idle⟩ | ⟨w, left⟩)
    · have inside : w < s.writers.length := recorded.registered.symm ▸ inside
      have found := List.getElem?_eq_getElem inside
      have here := recorded.writer w _ found
      refine ⟨_, List.getElem_mem inside,
        (Writer.completionTime_eq_none here.ordered).mpr (.inl ?_)⟩
      rw [here.last, idle]
      rfl
    · obtain ⟨writer, found, first⟩ := recorded.copiesLeft_pos.mp left
      exact ⟨writer, List.mem_of_getElem? found,
        (Writer.completionTime_eq_none (recorded.writer w writer found).ordered).mpr (.inr first)⟩

theorem peer_unknown (recorded : Recorded peers h s) :
    (∃ e ∈ s.peers, e.2 = none) ↔ ∃ p ∈ peers, reportedTimes h p = [] := by
  constructor
  · rintro ⟨⟨p, v⟩, member, rfl⟩
    obtain ⟨declared, silent⟩ := recorded.mem_peers.mp member
    exact ⟨p, declared, List.getLast?_eq_none_iff.mp silent.symm⟩
  · rintro ⟨p, declared, silent⟩
    exact ⟨(p, none), recorded.mem_peers.mpr ⟨declared, by simp [silent]⟩, rfl⟩

theorem globalCompletionTime_eq_none (recorded : Recorded peers h s) :
    s.globalCompletionTime = none ↔ Unknown peers h := by
  rw [State.globalCompletionTime_eq_none, recorded.writer_unknown, recorded.peer_unknown,
    recorded.peers_eq_nil, ← List.length_eq_zero_iff, recorded.registered]
  unfold Unknown
  exact or_congr_right or_comm

/-- The times up to a known global completion time are those that all sources bound. -/
theorem le_globalCompletionTime (recorded : Recorded peers h s) {gct : Instant}
    (known : s.globalCompletionTime = some gct) (v : Instant) :
    v ≤ gct ↔ Bounded peers h v := by
  rw [State.le_globalCompletionTime known]
  constructor
  · rintro ⟨writers, reports⟩
    obtain ⟨-, complete, -⟩ := (State.reached_iff gct).mp ⟨gct, known, le_rfl⟩
    -- the completion time of every writer is known, so each of them bounds `v`
    have here : ∀ (w : Nat) (writer : Writer), s.writers[w]? = some writer →
        (∀ last, writer.lastInitiated = some last → v ≤ last) ∧
          ∀ t ∈ writer.outstanding, v < t := by
      intro w writer found
      have member := List.mem_of_getElem? found
      obtain ⟨t, time, -⟩ := complete writer member
      exact (Writer.le_completionTime (recorded.writer w writer found).ordered time v).mp
        (writers writer member t time)
    refine ⟨?_, ?_, ?_⟩
    · exact fun p declared r last =>
        reports (p, some r) (recorded.mem_peers.mpr ⟨declared, last.symm⟩) r rfl
    · intro w last initiated
      cases found : s.writers[w]? with
      | none =>
        obtain ⟨noneInitiated, -⟩ := recorded.absent w (List.getElem?_eq_none_iff.mp found)
        simp [noneInitiated] at initiated
      | some writer =>
        refine (here w writer found).1 last ?_
        rw [(recorded.writer w writer found).last, initiated]
    · intro w t left
      obtain ⟨writer, found, member⟩ := recorded.copiesLeft_pos.mp left
      exact (here w writer found).2 t member
  · intro bounded
    constructor
    · intro writer member t complete
      obtain ⟨w, found⟩ := List.mem_iff_getElem?.mp member
      have recordedHere := recorded.writer w writer found
      refine (Writer.le_completionTime recordedHere.ordered complete v).mpr ⟨?_, ?_⟩
      · intro last initiated
        exact bounded.initiated w last (recordedHere.last ▸ initiated)
      · exact fun u outstanding =>
          bounded.outstanding w u (recorded.copiesLeft_pos.mpr ⟨writer, found, outstanding⟩)
    · rintro ⟨p, r⟩ member t rfl
      obtain ⟨declared, last⟩ := recorded.mem_peers.mp member
      exact bounded.reported p declared t last.symm

/-- A known global completion time keeps what it promises. -/
theorem lowWatermark (recorded : Recorded peers h s) {gct : Instant}
    (known : s.globalCompletionTime = some gct) : LowWatermark peers h s gct := by
  have bounded : Bounded peers h gct := (recorded.le_globalCompletionTime known gct).mp le_rfl
  have notUnknown : ¬ Unknown peers h := by
    rw [← recorded.globalCompletionTime_eq_none, known]
    exact Option.some_ne_none gct
  refine ⟨?_, ?_, ?_, bounded, fun v below => (recorded.le_globalCompletionTime known v).mpr below⟩
  · intro w t initiated le
    cases found : s.writers[w]? with
    | none =>
      obtain ⟨noneInitiated, -⟩ := recorded.absent w (List.getElem?_eq_none_iff.mp found)
      rw [noneInitiated] at initiated
      cases initiated
    | some writer =>
      have balance := (recorded.writer w writer found).balance t
      have left : ¬ 0 < copiesLeft h w t := fun left =>
        absurd (bounded.outstanding w t left) (not_lt_of_ge le)
      rw [(recorded.writer w writer found).copiesLeft] at left
      omega
  · intro w t after success
    obtain ⟨writer, changed, found, taken, -⟩ := State.withWriter_ok.mp success
    obtain ⟨late, -⟩ := Writer.initiated_ok.mp taken
    have here := recorded.writer w writer found
    cases initiated : writer.lastInitiated with
    | none =>
      rw [here.last, List.getLast?_eq_none_iff] at initiated
      have inside := (List.getElem?_eq_some_iff.mp found).1
      exact absurd (.inr (.inr (.inl ⟨w, recorded.registered ▸ inside, initiated⟩))) notUnknown
    | some last =>
      exact le_trans (bounded.initiated w last (here.last ▸ initiated)) (late last initiated)
  · intro p declared
    cases last : (reportedTimes h p).getLast? with
    | none =>
      have silent := List.getLast?_eq_none_iff.mp last
      exact absurd (.inr (.inl ⟨p, declared, silent⟩)) notUnknown
    | some r => exact ⟨r, rfl, bounded.reported p declared r last⟩

end Recorded

/-- After any calls, the global completion time is unknown exactly if some source is, and
otherwise it is the exact low watermark of the accepted calls. -/
theorem globalCompletionTime_lowWatermark (peers : List String) (calls : List Call) :
    let s := (State.start peers).replay calls
    let h := (State.start peers).accepted calls
    (s.globalCompletionTime = none ↔ Unknown peers h) ∧
      ∀ gct, s.globalCompletionTime = some gct → LowWatermark peers h s gct := by
  intro s h
  have recorded : Recorded peers h s := by
    simpa using (recorded_start peers).replay calls
  exact ⟨recorded.globalCompletionTime_eq_none, fun gct known => recorded.lowWatermark known⟩

/-- Nothing is known before the first call. -/
theorem State.globalCompletionTime_start (peers : List String) :
    (State.start peers).globalCompletionTime = none := by
  rw [(recorded_start peers).globalCompletionTime_eq_none]
  cases peers with
  | nil => exact .inl ⟨rfl, rfl⟩
  | cons p rest => exact .inr (.inl ⟨p, List.mem_cons_self, rfl⟩)

/-- An event registers nobody. -/
theorem State.apply_writers {s after : State} {e : Event}
    (applied : Coordinator.apply s e = .ok after) : after.writers.length = s.writers.length := by
  cases e with
  | initiated w t | completed w t =>
    obtain ⟨writer, changed, -, -, rfl⟩ := withWriter_ok.mp applied
    exact List.length_set
  | external p t =>
    obtain ⟨previous, -, -, rfl⟩ := external_ok.mp applied
    rfl

instance : LawfulBookkeeping State where
  writers s := s.writers.length
  writers_start _ := rfl
  writers_register _ := List.length_append
  writers_apply := State.apply_writers
  number_register _ := rfl
  unknown_start := State.globalCompletionTime_start

end PacedLoad.Watermark
