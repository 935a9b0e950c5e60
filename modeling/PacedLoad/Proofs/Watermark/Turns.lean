import Mathlib.Data.List.Induction
import Mathlib.Order.Bounds.Basic
import PacedLoad.Proofs.Watermark.Ledger
import PacedLoad.Proofs.Watermark.LowWatermark

/-!
# Writers that take turns

When the entries of a ledger come from writers that take turns, and all of them are
complete, each writer has come to the start of its last entry.  The least of these
starts is that of the entry as many places from the end as there are writers.  The
global completion time is then the least of it and of the last reports.
-/

namespace PacedLoad.Watermark

/-- The completion times of all writers are known, and `floor` is the least of them. -/
structure Settled (floor : Option Instant) (ws : List Writer) : Prop where
  empty : ws = [] ↔ floor = none
  known : ∀ writer ∈ ws, ∃ t, writer.completionTime = some t
  least : ∀ f, floor = some f → IsLeast {t | ∃ writer ∈ ws, writer.completionTime = some t} f

/-- Entries that start in ascending order, with writers that take turns. -/
structure InTurn (threads : Nat) (entries : List Entry) : Prop where
  positive : 0 < threads
  writer : ∀ (k : Nat) (e : Entry), entries[k]? = some e → e.writer = k % threads
  ascending : (entries.map Entry.start).Pairwise (· ≤ ·)

variable {threads : Nat} {entries : List Entry} {ws : List Writer}

/-- A writer whose entries are all complete has come to the last of them. -/
theorem Ledger.completionTime (ledger : Ledger entries ws) (done : ∀ e ∈ entries, e.done = true)
    {w : Nat} {writer : Writer} (found : ws[w]? = some writer) :
    writer.completionTime = (startsOf w entries).getLast? := by
  have nothing : writer.outstanding = [] := by
    refine List.eq_nil_iff_forall_not_mem.mpr fun t member => ?_
    rw [← List.count_pos_iff, ledger.outstanding w writer found, List.count_pos_iff] at member
    cases done _ member
  rw [← ledger.last w writer found, Writer.completionTime, nothing]

/-- The last start of a writer is that of its last entry. -/
theorem startsOf_last {w : Nat} {t : Instant} (last : (startsOf w entries).getLast? = some t) :
    ∃ (k : Nat) (e : Entry), entries[k]? = some e ∧ e.writer = w ∧ e.start = t ∧
      ∀ i > k, ∀ e' : Entry, entries[i]? = some e' → e'.writer ≠ w := by
  induction entries using List.reverseRecOn with
  | nil => cases last
  | append_singleton rest e ih =>
    by_cases mine : e.writer = w
    · have same : e.start = t := by simpa [startsOf, mine] using last
      refine ⟨rest.length, e, by simp, mine, same, fun i later e' found => ?_⟩
      have inside := (List.getElem?_eq_some_iff.mp found).1
      rw [List.length_append, List.length_singleton] at inside
      omega
    · have earlier : (startsOf w rest).getLast? = some t := by simpa [startsOf, mine] using last
      obtain ⟨k, e', found, his, start, past⟩ := ih earlier
      refine ⟨k, e', getElem?_append_some found, his, start, fun i later x found' => ?_⟩
      rcases getElem?_concat_some found' with before | ⟨-, rfl⟩
      · exact past i later x before
      · exact mine

/-- After the last turn of a writer not all of them have another one. -/
theorem InTurn.last_turn (inTurn : InTurn threads entries) {k : Nat} {e : Entry}
    (found : entries[k]? = some e)
    (past : ∀ i > k, ∀ e' : Entry, entries[i]? = some e' → e'.writer ≠ e.writer) :
    entries.length ≤ k + threads := by
  by_contra early
  obtain ⟨e', next⟩ : ∃ e', entries[k + threads]? = some e' :=
    ⟨_, List.getElem?_eq_getElem (by omega)⟩
  have positive := inTurn.positive
  refine past (k + threads) (by omega) e' next ?_
  rw [inTurn.writer _ _ next, Nat.add_mod_right, ← inTurn.writer k e found]

/-- The start at which a writer stands in the end is that of one of the last turns. -/
theorem InTurn.reached (inTurn : InTurn threads entries) (ledger : Ledger entries ws)
    (done : ∀ e ∈ entries, e.done = true) (count : ws.length = min entries.length threads)
    {w : Nat} {writer : Writer} (found : ws[w]? = some writer) :
    ∃ (k : Nat) (e : Entry), entries[k]? = some e ∧ entries.length ≤ k + threads ∧ k % threads = w ∧
      writer.completionTime = some e.start := by
  have inside := (List.getElem?_eq_some_iff.mp found).1
  obtain ⟨first, turn⟩ : ∃ first, entries[w]? = some first :=
    ⟨_, List.getElem?_eq_getElem (by omega)⟩
  have mine : first.writer = w := by
    rw [inTurn.writer w first turn, Nat.mod_eq_of_lt (by omega)]
  have started : first.start ∈ startsOf w entries :=
    mem_startsOf.mpr ⟨first, List.mem_of_getElem? turn, mine, rfl⟩
  have last := List.getLast?_eq_some_getLast (List.ne_nil_of_mem started)
  obtain ⟨k, e, place, his, start, past⟩ := startsOf_last last
  subst his
  refine ⟨k, e, place, inTurn.last_turn place past, (inTurn.writer k e place).symm, ?_⟩
  rw [ledger.completionTime done found, last, start]

/-- When all is complete, the least of the writers stands at the start of the entry as many places
from the end as there are writers. -/
theorem Ledger.settled (ledger : Ledger entries ws) (inTurn : InTurn threads entries)
    (done : ∀ e ∈ entries, e.done = true) (count : ws.length = min entries.length threads) :
    Settled (entries[entries.length - min entries.length threads]?.map Entry.start) ws := by
  have positive := inTurn.positive
  refine ⟨?_, fun writer member => ?_, fun f floor => ?_⟩
  · rw [← List.length_eq_zero_iff, count, Option.map_eq_none_iff, List.getElem?_eq_none_iff]
    omega
  · obtain ⟨w, found⟩ := List.getElem?_of_mem member
    obtain ⟨k, e, -, -, -, time⟩ := inTurn.reached ledger done count found
    exact ⟨e.start, time⟩
  · obtain ⟨e, place, rfl⟩ := Option.map_eq_some_iff.mp floor
    have inside := (List.getElem?_eq_some_iff.mp place).1
    generalize first : entries.length - min entries.length threads = m at place inside
    constructor
    · -- the writer of this entry has no later turn
      have bound : m % threads < threads := Nat.mod_lt m positive
      have small : m % threads ≤ m := Nat.mod_le m threads
      obtain ⟨writer, found⟩ : ∃ writer, ws[m % threads]? = some writer :=
        ⟨_, List.getElem?_eq_getElem (by omega)⟩
      obtain ⟨k, e', place', late, same, time⟩ := inTurn.reached ledger done count found
      have inside' := (List.getElem?_eq_some_iff.mp place').1
      have whole : (k - m) % threads = 0 := Nat.sub_mod_eq_zero_of_mod_eq same
      rw [Nat.mod_eq_of_lt (by omega)] at whole
      obtain rfl : k = m := by omega
      cases place.symm.trans place'
      exact ⟨writer, List.mem_of_getElem? found, time⟩
    · rintro t ⟨writer, member, time⟩
      obtain ⟨w, found⟩ := List.getElem?_of_mem member
      obtain ⟨k, e', place', late, -, time'⟩ := inTurn.reached ledger done count found
      cases time.symm.trans time'
      obtain ⟨inside', rfl⟩ := List.getElem?_eq_some_iff.mp place'
      obtain ⟨-, rfl⟩ := List.getElem?_eq_some_iff.mp place
      rcases Nat.eq_or_lt_of_le (show m ≤ k by omega) with rfl | lt
      · exact le_rfl
      · exact List.pairwise_iff_getElem.mp (List.pairwise_map.mp inTurn.ascending) m k inside
          inside' lt

/-- The global completion time when the writers are settled: unknown if there is no source or a
declared peer has not reported, and otherwise the least of what the writers and the peers have come
to. -/
theorem Settled.globalCompletionTime {floor : Option Instant} {peers : List String} {h : List Call}
    {s : State} (settled : Settled floor s.writers) (recorded : Recorded peers h s) :
    (s.globalCompletionTime = none ↔
        (floor = none ∧ peers = []) ∨ ∃ p ∈ peers, reportedTimes h p = []) ∧
      ∀ gct, s.globalCompletionTime = some gct →
        IsLeast {t | floor = some t ∨ ∃ p ∈ peers, (reportedTimes h p).getLast? = some t} gct := by
  constructor
  · have known : ¬ ∃ writer ∈ s.writers, writer.completionTime = none := by
      rintro ⟨writer, member, unknown⟩
      obtain ⟨t, time⟩ := settled.known writer member
      cases unknown.symm.trans time
    rw [State.globalCompletionTime_eq_none, recorded.peer_unknown, recorded.peers_eq_nil,
      settled.empty]
    exact or_congr_right (or_iff_right known)
  · intro gct known
    obtain ⟨ofWriters, ofPeers⟩ := (State.le_globalCompletionTime known gct).mp le_rfl
    have floorLe : ∀ f, floor = some f → gct ≤ f := by
      intro f here
      obtain ⟨writer, member, time⟩ := (settled.least f here).1
      exact ofWriters writer member f time
    constructor
    · rcases State.mem_of_globalCompletionTime known with ⟨writer, member, time⟩ | ⟨p, member⟩
      · left
        obtain ⟨f, here⟩ : ∃ f, floor = some f := by
          refine Option.ne_none_iff_exists'.mp fun none => ?_
          rw [settled.empty.mpr none] at member
          cases member
        have below := (settled.least f here).2 ⟨writer, member, time⟩
        rw [here, le_antisymm below (floorLe f here)]
      · obtain ⟨declared, last⟩ := recorded.mem_peers.mp member
        exact .inr ⟨p, declared, last.symm⟩
    · rintro t (here | ⟨p, declared, last⟩)
      · exact floorLe t here
      · exact ofPeers (p, some t) (recorded.mem_peers.mpr ⟨declared, last.symm⟩) t rfl

def called : Letter → Option Call
  | .event e => some (.announce e)
  | .request .register _ => some .register
  | _ => none

def callsOf (letters : List Letter) : List Call := letters.filterMap called

/-- A state holds what letters that were heeded have left. -/
theorem Recorded.heeded {peers : List String} {h : List Call} {s after : State}
    {letters : List Letter} (before : Recorded peers h s)
    (heeded : letters.foldlM Bookkeeping.heed s = some after) :
    Recorded peers (h ++ callsOf letters) after := by
  induction letters generalizing h s with
  | nil =>
    cases heeded
    simpa [callsOf] using before
  | cons m rest ih =>
    rw [List.foldlM_cons] at heeded
    obtain ⟨middle, first, later⟩ := Option.bind_eq_some_iff.mp heeded
    have more : ∀ c, called m = some c → s.accept c = .ok middle →
        Recorded peers (h ++ callsOf (m :: rest)) after := by
      intro c here accepted
      have next := ih (before.accept accepted) later
      simpa [callsOf, List.filterMap_cons, here] using next
    have same : called m = none → middle = s →
        Recorded peers (h ++ callsOf (m :: rest)) after := by
      rintro silent rfl
      have next := ih before later
      simpa [callsOf, List.filterMap_cons, silent] using next
    cases m with
    | event e => exact more (.announce e) rfl (State.heed_event.mp first)
    | request r ticket =>
      cases r with
      | register =>
        cases first
        exact more .register rfl rfl
      | read => exact same rfl (Option.some.inj first).symm
    | terminate n => exact same rfl (Option.some.inj first).symm

end PacedLoad.Watermark
