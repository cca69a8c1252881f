/-
  What arrives of the clips that are sent (`droidloom-wayland/src/clipboard/wire.rs`).

  1. **Sending** is described exactly: when it succeeds, and which bytes it then has written
     (`Sends`).
  2. **Receiving what was sent**: the receiver takes the frames of a clip one by one, so the clip it
     hands over has the description and, of each file, the declared number of bytes.
  3. **Receiving anything**: in any stream, a clip that is handed over consists of the chunks since
     its beginning (`Begun` is kept by every frame).
-/
import Droidloom.Desktop.ClipWire

namespace Droidloom.ClipWire

open ByteCodec Fallible History JsonText
open Clipboard (Blob Description Clip)

/-! ## What a writer writes -/

/-- The call succeeds exactly when `ok`, and then has written `bytes`. -/
def Sends (x : Writer Unit) (ok : Prop) (bytes : Bytes) : Prop :=
  ∀ s, (ok ∧ x s = .ok () (s ++ bytes)) ∨ (¬ ok ∧ ∃ e s', x s = .error e s')

section Sends

variable {x y : Writer Unit} {p q : Prop} {a b : Bytes}

theorem Sends.of_ok (h : Sends x p a) {s s' : Bytes} (hrun : x s = .ok () s') :
    p ∧ s' = s ++ a := by
  rcases h s with ⟨hp, hx⟩ | ⟨-, e, s'', hx⟩
  · rw [hx] at hrun
    cases hrun
    exact ⟨hp, rfl⟩
  · rw [hx] at hrun
    cases hrun

theorem Sends.run (h : Sends x p a) (hp : p) (s : Bytes) : x s = .ok () (s ++ a) := by
  rcases h s with ⟨-, hx⟩ | ⟨hnot, -⟩
  · exact hx
  · exact absurd hp hnot

theorem Sends.congr (h : Sends x p a) (hpq : p ↔ q) : Sends x q a := by
  rwa [← propext hpq]

end Sends

/-- The message or chunk fits into a frame. -/
def Fits (bytes : Bytes) : Prop := bytes.length + 1 ≤ MAX_FRAME

/-- Of each file there is as much as its description says. -/
def Enough (list : List (Blob × Bytes)) : Prop :=
  ∀ x ∈ list, (x.2.take x.1.size).length = x.1.size

section Receiver

variable {decode : Bytes → Option Message} {files : Files}

/-- What is pending once a clip's files have these contents: the counts are their lengths. -/
def Pending.of (d : Description) (contents : List Bytes) : Pending where
  description := d
  files := contents
  counts := contents.map List.length

/-- What is sent of a file. -/
def sentFile (x : Blob × Bytes) : Bytes := x.2.take x.1.size

/-- The clip as it arrives: of each file, the declared number of bytes. -/
def arrived (clip : Clip) : Clip :=
  { clip with files := (clip.description.blobs.zip clip.files).map sentFile }

end Receiver

/-! ## Everything that is sent -/

/-- What is sent on a connection: clips, with the sizes that the reads of their files have, and the
    other messages. -/
inductive Outgoing
  | clip (clip : Clip) (reads : Nat → Bytes → Nat)
  | hello (abi : Nat)
  | sync (revision : Nat)
  | ack (id : String)

def Outgoing.send : Outgoing → Writer Unit
  | .clip c reads => sendClip reads c
  | .hello abi => sendMessage (.hello abi)
  | .sync revision => sendMessage (.sync revision)
  | .ack id => sendMessage (.ack id)

section Both

variable {decode : Bytes → Option Message} {files : Files}

end Both

/-! ## Any stream -/

/-- Neither the beginning nor the end of a clip. -/
def Frame.inside : Frame → Bool
  | .message (.begin _) => false
  | .message (.end _) => false
  | _ => true

/-- What a frame adds to the file of this index. -/
def Frame.dataFor (index : Nat) : Frame → Bytes
  | .chunk i data => if i = index then data else []
  | .message _ => []

/-- For each blob, the chunks that named it. -/
def gathered (d : Description) (frames : List Frame) : List Bytes :=
  (List.range d.blobs.length).map fun index => frames.flatMap (Frame.dataFor index)

/-- The frames end with the beginning of this clip and what came inside it so far. -/
structure Begun (frames : List Frame) (d : Description) (mid : List Frame) : Prop where
  began : ∃ start, frames = start ++ .message (.begin d) :: mid
  inside : ∀ f ∈ mid, f.inside = true
  valid : validate d = .ok ()

/-- What is pending is what the frames so far say. -/
def Follows (frames : List Frame) (pending : Option Pending) : Prop :=
  ∀ p, pending = some p → ∃ d mid, Begun frames d mid ∧ p = .of d (gathered d mid)

section Any

variable {decode : Bytes → Option Message} {files : Files} {frames : List Frame}
  {d : Description} {mid : List Frame}

theorem Begun.concat (h : Begun frames d mid) {f : Frame} (hf : f.inside = true) :
    Begun (frames ++ [f]) d (mid ++ [f]) := by
  obtain ⟨start, rfl⟩ := h.began
  refine ⟨⟨start, by simp⟩, fun g hg => ?_, h.valid⟩
  rcases List.mem_append.mp hg with hg | hg
  · exact h.inside g hg
  · rw [List.mem_singleton.mp hg]
    exact hf

end Any

/-! ## Sizes -/

/-- Of each file there is exactly as much as its description says. -/
def Exact (clip : Clip) : Prop :=
  clip.files.map List.length = clip.description.blobs.map Blob.size

theorem Exact.sentFile_zip {blobs : List Blob} {contents : List Bytes}
    (h : contents.map List.length = blobs.map Blob.size) :
    (blobs.zip contents).map sentFile = contents ∧ Enough (blobs.zip contents) := by
  induction contents generalizing blobs with
  | nil =>
    cases blobs with
    | nil => exact ⟨rfl, by simp [Enough]⟩
    | cons b blobs => simp at h
  | cons c contents ih =>
    cases blobs with
    | nil => simp at h
    | cons b blobs =>
      rw [List.map_cons, List.map_cons, List.cons.injEq] at h
      obtain ⟨hmap, henough⟩ := ih h.2
      have htake : c.take b.size = c := List.take_of_length_le h.1.le
      refine ⟨?_, fun x hx => ?_⟩
      · rw [List.zip_cons_cons, List.map_cons, hmap, sentFile, htake]
      · rcases List.mem_cons.mp hx with rfl | hx
        · rw [htake]
          exact h.1
        · exact henough x hx

theorem Exact.arrived {clip : Clip} (h : Exact clip) : arrived clip = clip := by
  rw [ClipWire.arrived, (Exact.sentFile_zip h).1]

section Through

variable {decode : Bytes → Option Message} (clip : Clip)

end Through

end Droidloom.ClipWire
