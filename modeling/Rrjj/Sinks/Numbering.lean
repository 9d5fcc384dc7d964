import Mathlib.Data.List.TakeWhile
import Rrjj.Sinks.Journal

/-! Events that are numbered one after another, and the journals whose events are. -/

namespace Rrjj
open Library Library.Proc

def Numbered (first : ℕ) (events : List Event) : Prop :=
  events.map Event.seq = List.range' first events.length

section
variable {first : ℕ} {event : Event} {events batch left : List Event}

theorem numbered_nil : Numbered first [] := rfl

theorem numbered_cons :
    Numbered first (event :: events) ↔ event.seq = first ∧ Numbered (first + 1) events := by
  simp [Numbered, List.range'_succ]

theorem numbered_append :
    Numbered first (batch ++ left) ↔
      Numbered first batch ∧ Numbered (first + batch.length) left := by
  induction batch generalizing first with
  | nil => simp [numbered_nil]
  | cons event batch ih =>
    rw [List.cons_append, numbered_cons, ih, numbered_cons, and_assoc, List.length_cons,
      Nat.add_assoc, Nat.add_comm 1]

theorem Numbered.mem (h : Numbered first events) (hmem : event ∈ events) :
    first ≤ event.seq ∧ event.seq < first + events.length := by
  have hseq : event.seq ∈ List.range' first events.length := h ▸ List.mem_map_of_mem hmem
  simpa [List.mem_range'_1] using hseq

theorem Numbered.exists {n : ℕ} (h : Numbered first events) (hfirst : first ≤ n)
    (hlast : n < first + events.length) : ∃ event ∈ events, event.seq = n := by
  have hn : n ∈ events.map Event.seq := by
    rw [h]
    simp [hfirst, hlast]
  exact List.mem_map.mp hn

theorem Numbered.pairwise (h : Numbered first events) :
    events.Pairwise fun a b => a.seq < b.seq := by
  have hrange : (events.map Event.seq).Pairwise (· < ·) := h ▸ List.pairwise_lt_range'
  exact List.pairwise_map.mp hrange

theorem Numbered.dropWhile_head {delivered : ℕ} {next : Event} (h : Numbered first events)
    (hdrop : events.dropWhile (fun event => decide (event.seq ≤ delivered)) = next :: left) :
    next.seq = max first (delivered + 1) := by
  induction events generalizing first with
  | nil => exact absurd hdrop (by simp)
  | cons event events ih =>
    obtain ⟨hfirst, hrest⟩ := numbered_cons.mp h
    by_cases hle : event.seq ≤ delivered
    · rw [List.dropWhile_cons_of_pos (by simpa using hle)] at hdrop
      rw [ih hrest hdrop]
      omega
    · rw [List.dropWhile_cons_of_neg (by simpa using hle)] at hdrop
      obtain ⟨rfl, -⟩ := List.cons.inj hdrop
      omega

theorem Numbered.concat (h : Numbered first events) (seq : event.seq = first + events.length) :
    Numbered first (events ++ [event]) :=
  numbered_append.mpr ⟨h, numbered_cons.mpr ⟨seq, numbered_nil⟩⟩

end

namespace NdjsonSink
variable {serde : Serde} {sink created : NdjsonSink}

theorem call_numbered (call : SinkCall) (h : Numbered 0 sink.accepted) :
    Numbered 0 (sink.call serde call).2.accepted := by
  cases call with
  | emit answers event =>
    have hemit := emit_accepted serde answers event sink.accepted sink rfl
    rw [NdjsonSink.call]
    rcases hemit.outcome with ⟨_, -, haccepted, hseq⟩ | ⟨-, haccepted⟩
    · rw [haccepted]
      apply h.concat
      rw [hseq, Nat.zero_add]
    · rw [haccepted]
      exact h
  | flush answers =>
    have haccepted : ((flush answers).run sink).2.accepted = sink.accepted :=
      (flush_accepted answers sink.accepted).final rfl
    rw [NdjsonSink.call, haccepted]
    exact h

theorem Run.numbered {meets : NdjsonSink → SinkCall → Prop} (run : Run serde meets created sink)
    (h : Numbered 0 created.accepted) : Numbered 0 sink.accepted := by
  induction run with
  | start => exact h
  | call call _ _ ih => exact call_numbered call ih

theorem parseEventSpool_numbered {bytes : Bytes} {path sessionId sinkName : String} {version : ℕ}
    {events : List Event}
    (h : parseEventSpool serde bytes path sessionId version sinkName = .ok events) :
    Numbered 0 events := by
  have hparsed := mapM_ok_iff.mp (parseEventSpool_complete h).2
  have hseq : List.Forall₂ (fun line seq => line.2 = seq) (spoolLines bytes).zipIdx
      (events.map Event.seq) := by
    rw [List.forall₂_map_right_iff]
    refine hparsed.imp ?_
    intro line event hline
    unfold parseSpoolLine at hline
    split at hline
    · exact absurd hline (by simp)
    · obtain ⟨hnumber, hline⟩ := ite_error_iff.mp hline
      obtain ⟨-, hline⟩ := ite_error_iff.mp hline
      obtain ⟨-, hline⟩ := ite_error_iff.mp hline
      rw [← Except.ok.inj hline]
      exact (not_not.mp hnumber).symm
  have hsame : (spoolLines bytes).zipIdx.map Prod.snd = events.map Event.seq := by
    rw [← List.forall₂_eq_eq_eq, List.forall₂_map_left_iff]
    exact hseq
  rw [Numbered, ← hsame, List.zipIdx_map_snd, parseEventSpool_length h]

theorem createForSession_numbered {path : String} {maxSpoolBytes : ℕ} {sessionId : Option String}
    {version : Option ℕ} {existing : Bytes}
    (opened : createForSession serde path maxSpoolBytes sessionId version existing = .ok sink) :
    Numbered 0 sink.accepted := by
  have hcreated : ∃ accepted, Numbered 0 accepted ∧ sink.accepted = accepted := by
    rcases sessionId with _ | sessionId <;> rcases version with _ | version
    case some.some =>
      obtain ⟨accepted, hparsed, h⟩ := bind_ok_iff.mp opened
      obtain ⟨-, h⟩ := ite_error_iff.mp h
      exact ⟨accepted, parseEventSpool_numbered hparsed, by rw [← Except.ok.inj h]⟩
    all_goals
      obtain ⟨accepted, hnone, h⟩ := bind_ok_iff.mp opened
      obtain ⟨-, h⟩ := ite_error_iff.mp h
      exact ⟨[], numbered_nil, by rw [← Except.ok.inj h, ← Except.ok.inj hnone]⟩
  obtain ⟨accepted, hnumbered, haccepted⟩ := hcreated
  rw [haccepted]
  exact hnumbered

def spooledJournal : NdjsonSink := { exampleJournal with
  file := spooledText ++ [newline]
  bytes := (spooledText ++ [newline]).length
  accepted := [spooledEvent] }

theorem spooledJournal_run : Run exampleSerde (fun _ _ => True) exampleJournal spooledJournal := by
  have hwrites : exampleJournal.call exampleSerde (.emit {} spooledEvent) = (.ok (), spooledJournal) := by
    rw [NdjsonSink.call, emit_written spooledEvent_fits.lineFor rfl rfl rfl]
    simp [accept, spooledJournal, exampleJournal]
  have hrun : Run exampleSerde (fun _ _ => True) exampleJournal _ :=
    Run.start.call (.emit {} spooledEvent) trivial
  rw [hwrites] at hrun
  exact hrun

end NdjsonSink
end Rrjj
