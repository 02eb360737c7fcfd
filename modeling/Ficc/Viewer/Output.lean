import Ficc.Viewer.Bounds

/-!
# Display output in chunks

The native viewer writes a stream of bytes, which arrives in chunks. `iterFeed` decodes a chunk,
finds the ends of the instructions that are complete, and accepts them one after the other. A part
of an instruction waits for the next chunk, and so does a part of a character.

A decoder of characters refuses a chunk as a whole, so that the instructions in front of a byte that
is not UTF-8 are lost if they stand in the same chunk, and shown if they came in an earlier one.
-/

namespace Ficc.Viewer

open Utf8 JsonText Durable

/-- What counts towards the limits. The clock is read in seconds. -/
structure Usage where
  started : ℚ
  bytes : ℕ
  count : ℕ
  frameBytes : ℕ
  frameCount : ℕ
deriving DecidableEq

/-- The state of a display whose output is forwarded. -/
structure Output where
  decoder : Option Owed
  buffer : Text
  screen : Screen
  usage : Usage

/-- A new display. -/
def Output.new (now : ℚ) : Output where
  decoder := none
  buffer := []
  screen := .new
  usage := ⟨now, 0, 0, 0, 0⟩

/-- What is found at the start of the text that has arrived. -/
inductive Scan
  /-- The instruction is not complete yet. -/
  | waiting
  | refused (fault : Fault)
  /-- An instruction ends before the position. -/
  | complete (position : ℕ)
deriving DecidableEq

/-- Looks for the end of an instruction in the text after `position`, where `found` elements stand
before it. An instruction has sixteen elements at most, so that seventeen rounds are enough. -/
def scan : ℕ → Text → ℕ → ℕ → Scan
  | 0, _, _, _ => .refused (.value "Invalid display element boundary.")
  | rounds + 1, rest, position, found =>
    match findPoint rest with
    | none =>
      if 7 ≤ rest.length then .refused (.value "Invalid display element prefix.") else .waiting
    | some point =>
      match number (rest.take point) 65536 with
      | .error fault => .refused fault
      | .ok size =>
        match rest.drop (point + size + 1) with
        | [] => .waiting
        | delimiter :: after =>
          if 16 < found + 1 ∨ 65536 < position + (point + size + 2) ∨
              ¬(delimiter = 44 ∨ delimiter = 59) then
            .refused (.value "Invalid display element boundary.")
          else if delimiter = 59 then .complete (position + (point + size + 2))
          else scan rounds after (position + (point + size + 2)) (found + 1)

/-- A chunk arrives. -/
def receive (now : ℚ) (data : List UInt8) : Durable Output Fault Unit := do
  perform fun output =>
    if 1 ≤ now - output.usage.started then
      { output with usage := { output.usage with started := now, bytes := 0, count := 0 } }
    else output
  perform fun output => { output with usage := { output.usage with
    bytes := output.usage.bytes + data.length
    frameBytes := output.usage.frameBytes + data.length } }
  let output ← disk
  refuseIf (16 * 1024 * 1024 < output.usage.bytes ∨ 16 * 1024 * 1024 < output.usage.frameBytes)
    (.limit "Display output exceeds its byte limit.")
  let decoded ← demand (decodeFrom output.decoder data) (.value "invalid start byte")
  perform fun output =>
    { output with decoder := decoded.1, buffer := output.buffer ++ decoded.2 }
  let output ← disk
  refuseIf (131072 < output.buffer.length)
    (.limit "Display instruction exceeds its buffer limit.")

/-- The next instruction, if it is complete, with the instructions that the browser receives. -/
def next : Durable Output Fault (Option (List (List UInt8))) := do
  let output ← disk
  if output.buffer = [] then pure none
  else match scan 17 output.buffer 0 0 with
    | .waiting => pure none
    | .refused fault => check (.error fault)
    | .complete position => do
      let values ← check (parse (output.buffer.take position) 65536)
      perform fun output => { output with buffer := output.buffer.drop position }
      perform fun output => { output with usage := { output.usage with
        count := output.usage.count + 1, frameCount := output.usage.frameCount + 1 } }
      let output ← disk
      refuseIf (8192 < output.usage.count ∨ 32768 < output.usage.frameCount)
        (.limit "Display output exceeds its instruction limit.")
      let packets ← onPart Output.screen (fun screen output => { output with screen })
        (accept values)
      -- A frame that ends resets what has been counted for it.
      perform fun output =>
        if values.getD 0 [] = points "sync" then
          { output with usage := { output.usage with frameBytes := 0, frameCount := 0 } }
        else output
      pure (some packets)

/-- What has been emitted, the state after it, and what was raised. -/
structure Emitted where
  packets : List (List UInt8)
  output : Output
  fault : Option Fault

/-- Accepts the instructions that are complete. Each takes a character or more. -/
def drain : ℕ → Output → Emitted
  | 0, output => ⟨[], output, none⟩
  | rounds + 1, output =>
    let course := next output
    let after := last output course.states
    match course.result with
    | .error fault => ⟨[], after, some fault⟩
    | .ok none => ⟨[], after, none⟩
    | .ok (some packets) =>
      let later := drain rounds after
      { later with packets := packets ++ later.packets }

/-- The instructions that are emitted for a chunk. -/
def iterFeed (now : ℚ) (data : List UInt8) (output : Output) : Emitted :=
  let course := receive now data output
  let after := last output course.states
  match course.result with
  | .error fault => ⟨[], after, some fault⟩
  | .ok _ => drain after.buffer.length after

/-- The instructions for a chunk, if nothing is raised. -/
def feed (now : ℚ) (data : List UInt8) (output : Output) : Except Fault (List (List UInt8)) :=
  let emitted := iterFeed now data output
  match emitted.fault with
  | some fault => .error fault
  | none => .ok emitted.packets

/-- Groups instructions into deliveries. `packets` wait, with `size` bytes; they are lost if the
instructions end with `fault`. -/
def group (fault : Option Fault) :
    List (List UInt8) → List (List UInt8) → ℕ → List (List UInt8) × Option Fault
  | [], packets, _ =>
    (if fault = none ∧ packets ≠ [] then [packets.flatten] else [], fault)
  | packet :: rest, packets, size =>
    if 65536 < packet.length then
      ([], some (.limit "Display instruction exceeds its delivery limit."))
    else
      let full : Bool := packets ≠ [] ∧ (65536 < size + packet.length ∨ packets.length = 64)
      let done := if full then [packets.flatten] else []
      let waiting := (if full then [] else packets) ++ [packet]
      if bytesOf "4.sync," <+: packet then
        let later := group fault rest [] 0
        (done ++ waiting.flatten :: later.1, later.2)
      else
        let later := group fault rest waiting ((if full then 0 else size) + packet.length)
        (done ++ later.1, later.2)

/-- The deliveries for a chunk. -/
def iterBatches (now : ℚ) (data : List UInt8) (output : Output) :
    List (List UInt8) × Option Fault :=
  let emitted := iterFeed now data output
  group emitted.fault emitted.packets [] 0

/-- The browser sends an instruction. The stamp of a frame becomes the stamp of the native viewer. -/
def acknowledge (data : List UInt8) : Durable Screen Fault (List UInt8) := do
  let text ← check (ascii data)
  let values ← check (parse text 4096)
  if values.getD 0 [] = points "sync" then do
    let value ← demand values[1]? .index
    let stamp ← check (number value (2 ^ 53 - 1))
    let screen ← disk
    refuseIf (screen.syncs.lookup stamp = none) (.value "Invalid display frame acknowledgement.")
    let native ← demand (screen.syncs.lookup stamp) .key
    perform fun screen => { screen with syncs := screen.syncs.erase stamp }
    check (instruction (points "sync" :: decimal native :: values.drop 2))
  else pure data

end Ficc.Viewer
