import Ficc.Foundations.Base64
import Ficc.Foundations.Durable
import Ficc.Foundations.Table
import Ficc.Viewer.Wire

/-!
# Accepted display output

What the native viewer draws is checked before a browser sees it. `accept` takes one instruction,
keeps account of the layers, the open images and the frames that the browser has to acknowledge, and
returns the instructions for the browser. An image is held back until its last part has arrived.

`accept` is a program with steps, because the account can be changed before a later check raises.
-/

namespace Ficc.Viewer

open Utf8 JsonText Durable

/-- An image whose parts are arriving. -/
structure ImageStream where
  args : List Text
  layer : ℤ
  x : ℕ
  y : ℕ
  data : List UInt8
deriving DecidableEq

/-- A number of bytes, the first of which is the highest. -/
def bigEndian (bytes : List UInt8) : ℕ := bytes.foldl (fun n byte => n * 256 + byte.toNat) 0

/-- The width that an image says it has. -/
def ImageStream.width (stream : ImageStream) : ℕ := bigEndian ((stream.data.drop 16).take 4)

/-- The height that an image says it has. -/
def ImageStream.height (stream : ImageStream) : ℕ := bigEndian ((stream.data.drop 20).take 4)

/-- The account of a display. A frame that the browser has to acknowledge is kept with the stamp of
the native viewer. -/
structure Screen where
  layers : Table ℤ (ℕ × ℕ)
  streams : Table ℕ ImageStream
  syncs : Table ℕ ℕ
  lastStamp : ℕ
  framePixels : ℕ

/-- The account of a new display. -/
def Screen.new : Screen where
  layers := (∅ : Table ℤ (ℕ × ℕ)).insert 0 (0, 0)
  streams := ∅
  syncs := ∅
  lastStamp := 0
  framePixels := 0

/-- A length of a canvas in memory. -/
def rounded (length : ℕ) : ℕ := (length + 63) / 64 * 64

/-- The pixels of all canvases in memory. -/
def Screen.pixels (screen : Screen) : ℕ :=
  screen.layers.total fun size => rounded size.1 * rounded size.2

/-- The bytes of a text in the standard alphabet of base64. -/
def b64decode (text : Text) : Except Fault (List UInt8) := do
  raiseIf (text.any fun c => 128 ≤ c.val || c = 45 || c = 95) (.value "Only base64 data is allowed")
  orRaise (Base64.decode (text.map fun c => Char.ofNat c.val)) (.value "Incorrect padding")

/-- Bytes in the standard alphabet of base64. -/
def b64encode (bytes : List UInt8) : Text :=
  (Base64.encode bytes).map fun c => point (if c = '-' then '+' else if c = '_' then '/' else c)

/-- The index of a layer. -/
def layerIndex (value : Text) : Except Fault ℤ := do
  let digits := if value.head? = some 45 then value.drop 1 else value
  raiseIf (digits = [] ∨ 6 < digits.length ∨ digits.all digit = false)
    (.value "Invalid display layer.")
  .ok (if value.head? = some 45 then -(natural digits : ℤ) else natural digits)

/-- The layer with an index, which is created where there is none. -/
def layer (value : Text) : Durable Screen Fault ℤ := do
  let index ← check (layerIndex value)
  let screen ← disk
  if screen.layers.lookup index = none then do
    refuseIf (8 ≤ screen.layers.entries.length) (.value "Display layer limit reached.")
    perform fun screen => { screen with layers := screen.layers.insert index (0, 0) }
    pure index
  else pure index

/-- Something is drawn on an area of a layer. The arguments are never negative. -/
def area (layer : ℤ) (x y width height : ℕ) : Durable Screen Fault Unit := do
  refuseIf (4096 < x + width ∨ 2160 < y + height) (.value "Display area exceeds its limit.")
  let screen ← disk
  let old ← demand (screen.layers.lookup layer) .key
  perform fun screen => { screen with
    layers := screen.layers.insert layer (max old.1 (x + width), max old.2 (y + height)) }
  let screen ← disk
  refuseIf (20 * 1024 * 1024 < screen.pixels) (.value "Display canvas memory limit reached.")

/-- An image begins. -/
def image (args : List Text) : Durable Screen Fault Unit := do
  let index ← check (number (args.getD 0 []) 65535)
  let _ ← check (number (args.getD 1 []) 15)
  let target ← layer (args.getD 2 [])
  let x ← check (number (args.getD 4 []) 4095)
  let y ← check (number (args.getD 5 []) 2159)
  refuseIf (args.getD 3 [] ≠ points "image/png") (.value "Unsupported display image format.")
  let screen ← disk
  refuseIf (screen.streams.lookup index ≠ none)
    (.value "The display image stream is already open.")
  refuseIf (4 ≤ screen.streams.entries.length)
    (.value "The display image stream limit was reached.")
  perform fun screen => { screen with
    streams := screen.streams.insert index ⟨args, target, x, y, []⟩ }

/-- The first bytes of an image. -/
def pngHeader : List UInt8 := [0x89, 0x50, 0x4E, 0x47, 0x0D, 0x0A, 0x1A, 0x0A, 0, 0, 0, 0x0D,
  0x49, 0x48, 0x44, 0x52]

/-- The chunks that an image may have. -/
def pngKinds : List String :=
  ["IHDR", "IDAT", "IEND", "PLTE", "tRNS", "sRGB", "gAMA", "cHRM", "pHYs", "bKGD"]

/-- The bytes of an ASCII string. -/
def bytesOf (text : String) : List UInt8 := text.toList.map fun c => UInt8.ofNat c.toNat

/-- The chunks of an image, up to the last of its bytes. A chunk has twelve bytes or more. -/
def pngChunks : ℕ → List UInt8 → Bool → Except Fault Unit
  | 0, rest, ended => raiseIf (rest ≠ [] ∨ ended = false) (.value "Incomplete display PNG.")
  | rounds + 1, rest, ended =>
    if rest.length < 12 then
      raiseIf (rest ≠ [] ∨ ended = false) (.value "Incomplete display PNG.")
    else do
      let size := bigEndian (rest.take 4)
      let kind := (rest.drop 4).take 4
      raiseIf (kind ∉ pngKinds.map bytesOf) (.value "Unsupported display PNG chunk.")
      raiseIf (rest.length < size + 12 ∨ ended = true) (.value "Invalid display PNG boundary.")
      pngChunks rounds (rest.drop (size + 12)) (kind = bytesOf "IEND" && size = 0)

/-- The instructions that show an image. -/
def imagePackets (index : ℕ) (stream : ImageStream) : Except Fault (List (List UInt8)) := do
  let first ← instruction (points "img" :: stream.args)
  let parts ← (List.range ((stream.data.length + 8191) / 8192)).mapM fun part =>
    instruction [points "blob", decimal index,
      b64encode ((stream.data.drop (part * 8192)).take 8192)]
  let last ← instruction [points "end", decimal index]
  .ok (first :: parts ++ [last])

/-- An image has ended. -/
def completeImage (index : ℕ) : Durable Screen Fault (List (List UInt8)) := do
  let screen ← disk
  let stream ← demand (screen.streams.lookup index) .key
  perform fun screen => { screen with streams := screen.streams.erase index }
  refuseIf (stream.data.length < 45 ∨ stream.data.take 16 ≠ pngHeader)
    (.value "Invalid display PNG header.")
  refuseIf (stream.width = 0 ∨ stream.height = 0) (.value "Invalid display image dimensions.")
  area stream.layer stream.x stream.y stream.width stream.height
  perform fun screen => { screen with
    framePixels := screen.framePixels + stream.width * stream.height }
  let screen ← disk
  refuseIf (32 * 1024 * 1024 < screen.framePixels) (.value "Display frame pixel limit reached.")
  check (pngChunks stream.data.length (stream.data.drop 8) false)
  check (imagePackets index stream)

/-- A part of an image arrives. -/
def blob (index : ℕ) (text : Text) : Durable Screen Fault Unit := do
  let data ← check (b64decode text)
  let screen ← disk
  let stream ← demand (screen.streams.lookup index) .key
  refuseIf (8 * 1024 * 1024 < stream.data.length + data.length)
    (.value "Display image exceeds its limit.")
  perform fun screen => { screen with
    streams := screen.streams.insert index { stream with data := stream.data ++ data } }

/-- A frame ends. The browser sees a stamp that no earlier frame had. -/
def sync (args : List Text) : Durable Screen Fault (List (List UInt8)) := do
  let stamp ← check (number (args.getD 0 []) (2 ^ 53 - 1))
  check (if args.length = 2 then do
    let _ ← number (args.getD 1 []) 65535
    .ok () else .ok ())
  let screen ← disk
  refuseIf (screen.streams.entries ≠ [])
    (.value "The display frame contains unfinished images.")
  refuseIf (3 ≤ screen.syncs.entries.length)
    (.value "Display frame acknowledgement limit reached.")
  let last := max stamp (screen.lastStamp + 1)
  perform fun screen => { screen with lastStamp := last }
  refuseIf (2 ^ 53 - 1 < last) (.value "The display frame timestamp exceeds its limit.")
  perform fun screen => { screen with syncs := screen.syncs.insert last stamp }
  perform fun screen => { screen with framePixels := 0 }
  let packet ← check (instruction (points "sync" :: decimal last :: args.drop 1))
  pure [packet]

/-- The checks of the instructions that are passed on as they are. -/
def draw (op : Text) (args : List Text) : Durable Screen Fault Unit :=
  if op = points "mouse" then do
    let _ ← check (number (args.getD 0 []) 4095)
    let _ ← check (number (args.getD 1 []) 2159)
    if args.length = 4 then do
      let _ ← check (number (args.getD 2 []) 31)
      let _ ← check (number (args.getD 3 []) (2 ^ 53 - 1))
      pure ()
    else pure ()
  else if op = points "size" then do
    let target ← layer (args.getD 0 [])
    perform fun screen => { screen with layers := screen.layers.insert target (0, 0) }
    let width ← check (number (args.getD 1 []) 4096)
    let height ← check (number (args.getD 2 []) 2160)
    area target 0 0 width height
  else if op = points "rect" then do
    let target ← layer (args.getD 0 [])
    let x ← check (number (args.getD 1 []) 4096)
    let y ← check (number (args.getD 2 []) 4096)
    let width ← check (number (args.getD 3 []) 4096)
    let height ← check (number (args.getD 4 []) 4096)
    area target x y width height
  else if op = points "cfill" then do
    let _ ← check (number (args.getD 0 []) 15)
    let _ ← layer (args.getD 1 [])
    check ((args.drop 2).forM fun value => do
      let _ ← number value 255
      .ok ())
  else if op = points "copy" then do
    let source ← layer (args.getD 0 [])
    let target ← layer (args.getD 6 [])
    let x ← check (number (args.getD 1 []) 4096)
    let y ← check (number (args.getD 2 []) 4096)
    let width ← check (number (args.getD 3 []) 4096)
    let height ← check (number (args.getD 4 []) 4096)
    let _ ← check (number (args.getD 5 []) 15)
    area source x y width height
    let left ← check (number (args.getD 7 []) 4096)
    let top ← check (number (args.getD 8 []) 2160)
    area target left top width height
  else if op = points "cursor" then do
    let _ ← check (number (args.getD 0 []) 255)
    let _ ← check (number (args.getD 1 []) 255)
    let target ← layer (args.getD 2 [])
    let x ← check (number (args.getD 3 []) 4096)
    let y ← check (number (args.getD 4 []) 2160)
    let width ← check (number (args.getD 5 []) 256)
    let height ← check (number (args.getD 6 []) 256)
    area target x y width height
  else if op = points "dispose" ∨ op = points "reset" then do
    let target ← layer (args.getD 0 [])
    if op = points "dispose" ∧ target ≠ 0 then
      perform fun screen => { screen with layers := screen.layers.erase target }
    else pure ()
  else pure ()

/-- The numbers of arguments of the instructions. -/
def counts : List (String × List ℕ) :=
  [("ready", [1]), ("name", [1]), ("sync", [1, 2]), ("size", [3]), ("rect", [5]), ("cfill", [6]),
    ("copy", [9]), ("cursor", [7]), ("dispose", [1]), ("reset", [1]), ("img", [6]), ("blob", [2]),
    ("end", [1]), ("mouse", [2, 4]), ("error", [2]), ("disconnect", [0]), ("nop", [0])]

/-- An instruction of the native viewer, with the instructions that the browser receives for it. -/
def accept (values : List Text) : Durable Screen Fault (List (List UInt8)) := do
  let op := values.getD 0 []
  let args := values.drop 1
  refuseIf (¬∃ entry ∈ counts, op = points entry.1 ∧ args.length ∈ entry.2)
    (.value "Unsupported display output instruction.")
  if op = points "ready" ∨ op = points "name" then do
    refuseIf (256 < (args.getD 0 []).length) (.value "Invalid display metadata.")
    pure []
  else if op = points "error" then
    check (.error (.value "The native viewer reported a display error."))
  else if op = points "sync" then sync args
  else if op = points "img" then do
    image args
    pure []
  else if op = points "blob" ∨ op = points "end" then do
    let index ← check (number (args.getD 0 []) 65535)
    let screen ← disk
    refuseIf (screen.streams.lookup index = none) (.value "Unknown display image stream.")
    if op = points "end" then completeImage index
    else do
      blob index (args.getD 1 [])
      pure []
  else do
    draw op args
    let packet ← check (instruction values)
    pure [packet]

end Ficc.Viewer
