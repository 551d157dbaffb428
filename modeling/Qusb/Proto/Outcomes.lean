import Qusb.Proto.Recv

/-! Packetisation.

What repeated calls of `recvFrame` come to is a function of the bytes alone: of those that are buffered and
those still to be delivered, one after the other. How the transport cuts the stream into reads, how large the
buffer is and how it grows cannot be observed, whether or not the bytes make sense. -/

open ByteCodec

namespace Qusb.Proto

/-- What can be seen of one call. -/
inductive Outcome where
  | frame (buf : Bytes)
  | corruptedData
  | endOfStream
  | io (e : IoError)
  | panic (f : Fault)
  deriving DecidableEq

def Outcome.of : Received → Outcome
  | .ok d => .frame d.buf
  | .error none => .endOfStream
  | .error (some .corruptedData) => .corruptedData
  | .error (some (.io e)) => .io e

/-- The outcomes of the given number of calls; a panic is the last one. -/
def outcomes (a : Alloc) (b : Build) : Nat → Ring → Reader → List Outcome
  | 0, _, _ => []
  | n + 1, ring, rx =>
      match recvFrame a b ring rx with
      | .error f => [.panic f]
      | .ok (received, ring, rx) => .of received :: outcomes a b n ring rx

/-- The same, read off the bytes. -/
def cutOutcomes (b : Build) : Nat → Bytes → List Outcome
  | 0, _ => []
  | n + 1, bs =>
      match cutFrame b bs with
      | .error f => [.panic f]
      | .ok none => .endOfStream :: cutOutcomes b n bs
      | .ok (some (frame, rest)) => .of (Cut.received frame) :: cutOutcomes b n rest

/-- **Outcomes** are read off the bytes. -/
theorem outcomes_eq (a : Alloc) (b : Build) (n : Nat) (ring : Ring) (rx : Reader)
    (herrors : rx.errors = []) : outcomes a b n ring rx = cutOutcomes b n (ring.buf ++ rx.bytes) := by
  induction n generalizing ring rx with
  | zero => rfl
  | succ n ih =>
      have hnext : ∀ {received rest}, Returns (recvFrame a b ring rx) received rest [] →
          outcomes a b (n + 1) ring rx = .of received :: cutOutcomes b n rest := by
        rintro received rest ⟨ring', rx', hcall, hrest, herrors'⟩
        simp only [outcomes, hcall]
        rw [ih ring' rx' herrors', hrest]
      have hspec := recvFrame_spec a b ring rx
      rw [herrors] at hspec
      rcases hspec with ⟨e, errors, he, -⟩ | hcut
      · cases he
      · rw [cutOutcomes]
        cases hc : cutFrame b (ring.buf ++ rx.bytes) with
        | error f =>
            rw [hc] at hcut
            have hcall : recvFrame a b ring rx = .error f := hcut
            simp only [outcomes, hcall]
        | ok cut =>
            rw [hc] at hcut
            cases cut with
            | none => exact hnext hcut
            | some p => exact hnext hcut

/-- **Packetisation cannot be observed.** From buffers with the same content, any two deliveries of the same
bytes in non-empty reads, followed by end of stream, have the same outcomes. -/
theorem outcomes_ofChunks (a a' : Alloc) (b : Build) (ring ring' : Ring) (hring : ring.buf = ring'.buf)
    (cs cs' : List Chunk) (hbytes : (cs.map Chunk.bytes).flatten = (cs'.map Chunk.bytes).flatten)
    (n : Nat) : outcomes a b n ring (.ofChunks cs) = outcomes a' b n ring' (.ofChunks cs') := by
  rw [outcomes_eq a b n ring _ (Reader.errors_ofChunks cs),
    outcomes_eq a' b n ring' _ (Reader.errors_ofChunks cs'), Reader.bytes_ofChunks, Reader.bytes_ofChunks,
    hring, hbytes]

/-- A frame without data, whole and in pieces. -/
theorem outcomes_in_pieces :
    outcomes .tight .dev 2 (Ring.withCapacity 64)
        (.ofChunks [⟨[1, 0, 3, 0, 7, 0, 0, 0], by decide⟩]) =
      outcomes .tight .dev 2 (Ring.withCapacity 8)
        (.ofChunks [⟨[1], by decide⟩, ⟨[0], by decide⟩, ⟨[3], by decide⟩, ⟨[0, 7, 0], by decide⟩,
          ⟨[0, 0], by decide⟩]) :=
  outcomes_ofChunks .tight .tight .dev _ _ (by rfl) _ _ (by rfl) 2

end Qusb.Proto
