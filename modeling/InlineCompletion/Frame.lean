import InlineCompletion.Fault
import InlineCompletion.Json.Reader
import InlineCompletion.Json.Writer
import InlineCompletion.Text.Utf8
import InlineCompletion.Text.Blank
import InlineCompletion.Text.Lower

/-!
# Frames

A message travels as a frame: header lines, an empty line, and a body whose
length in bytes the header names.  A frame is taken off the front of the bytes
received so far.  The main statements are that what is left is an end of those
bytes, never longer than they are, and that bytes without an empty line are left
as they are.
-/

namespace InlineCompletion

abbrev Bytes := List UInt8

namespace Frame

def header (length : Nat) : Text :=
  "Content-Length: ".toList ++ Integer.digits length ++ ['\r', '\n', '\r', '\n']

/-- A body behind its header, unless its length has too many digits to be
shown. -/
def framed (body : Bytes) : Except Fault Bytes :=
  if Integer.isShowable body.length then
    .ok (Utf8.encode (header body.length) ++ body)
  else .error .tooLongToShow

def encode (room : Nat) (message : Json) : Except Fault Bytes :=
  (message.write room).bind fun t => framed (Utf8.encode t)

def splitHeader : Bytes → Option (Bytes × Bytes)
  | [] => none
  | b :: rest =>
      if [13, 10, 13, 10].isPrefixOf (b :: rest) then some ([], rest.drop 3)
      else (splitHeader rest).map fun p => (b :: p.1, p.2)

def lines : Text → List Text
  | [] => [[]]
  | '\r' :: '\n' :: rest => [] :: lines rest
  | c :: rest =>
      match lines rest with
      | [] => [[c]]
      | line :: more => (c :: line) :: more

def lengthOf? (line : Text) : Option Int :=
  if "content-length".toList.isPrefixOf line.lowerAscii then
    match Text.splitOn ':' line with
    | _ :: value :: _ => (Integer.read (value.trim isBlank)).toOption
    | _ => none
  else none

def bodyLength (header : Bytes) : Int :=
  (lines (Utf8.decodeKnown header)).foldl
    (fun n line => (lengthOf? line).getD n) 0

inductive Found where
  /-- No whole frame yet. -/
  | incomplete
  | message (value : Json)
  /-- A frame whose body is no value; it is dropped. -/
  | undecodable (body : Bytes)
  deriving Repr

/-- What was found at the front of bytes, and what is left of them. -/
structure Extracted where
  found : Found
  rest : Bytes

/-- Reads the body of a frame; an integer with too many digits is a fault, and
so is a value nested too deeply. -/
def decodeBody (room : Nat) (body : Bytes) : Except Fault Found :=
  match Utf8.decode? body with
  | none => .ok (.undecodable body)
  | some t =>
      match Json.read room t with
      | .ok value => .ok (.message value)
      | .error .malformed => .ok (.undecodable body)
      | .error (.tooLong digits) => .error (.tooManyDigits digits)
      | .error .tooDeep => .error .tooDeep

/-- Takes a frame off the front of bytes.  A negative length ends the body
before it starts. -/
def extract (room : Nat) (data : Bytes) : Except Fault Extracted :=
  match splitHeader data with
  | none => .ok ⟨.incomplete, data⟩
  | some (header, _) =>
      let start : Int := header.length + 4
      let stop := start + bodyLength header
      if (data.length : Int) < stop then .ok ⟨.incomplete, data⟩
      else (decodeBody room (Slice.between data start stop)).map fun found =>
        ⟨found, Slice.after data stop⟩

theorem extract_of_splitHeader_eq_none {room : Nat} {data : Bytes}
    (h : splitHeader data = none) :
    extract room data = .ok ⟨.incomplete, data⟩ := by
  simp [extract, h]

theorem extract_rest_suffix {room : Nat} {data : Bytes} {e : Extracted}
    (h : extract room data = .ok e) :
    e.rest <:+ data := by
  unfold extract at h
  split at h
  · cases h
    exact List.suffix_refl _
  · next header _ _ =>
      dsimp only at h
      split at h
      · cases h
        exact List.suffix_refl _
      · cases hb : decodeBody room (Slice.between data (header.length + 4)
            (header.length + 4 + bodyLength header)) with
        | error f => simp [hb, Except.map] at h
        | ok found =>
            simp only [hb, Except.map, Except.ok.injEq] at h
            subst h
            exact Slice.after_suffix _ _

theorem extract_rest_length_le {room : Nat} {data : Bytes} {e : Extracted}
    (h : extract room data = .ok e) : e.rest.length ≤ data.length :=
  (extract_rest_suffix h).length_le

end Frame
end InlineCompletion
