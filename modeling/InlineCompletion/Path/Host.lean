import InlineCompletion.Fault
import InlineCompletion.Text.Blank
import InlineCompletion.Text.Digit
import InlineCompletion.Text.Hex
import InlineCompletion.Text.Ranges

/-!
# Hosts

The authority of an address is a user, a host and a port.  The host may stand in
brackets, and then it has to be a numeric address of the later kinds: eight
groups of digits of base sixteen, of which a run may be left out once, or an
announced future kind.  An authority without brackets is free, but it must not
hold characters that stand for delimiters.
-/

namespace InlineCompletion
namespace Host

/-- Whether a text is one octet of a numeric address: at most 255, without
leading zeros. -/
def isOctet (t : Text) : Bool :=
  !t.isEmpty && t.all isDigit && t.length ≤
    3 && (t == ['0'] || t.head? != some '0')
    && t.foldl (fun n c => 10 * n + (c.toNat - 0x30)) 0 ≤ 255

def isOctets (t : Text) : Bool :=
  let parts := Text.splitOn '.' t
  parts.length == 4 && parts.all isOctet

def isGroup (t : Text) : Bool :=
  t.all (fun c => (Hex.value? c).isSome) && t.length ≤ 4

/-- Whether parts between colons are a long numeric address.  An empty part away
from the ends stands for groups left out; an empty end is allowed only beside
it. -/
def areGroups (parts : List Text) : Bool :=
  let inner := (parts.drop 1).dropLast
  if parts.length < 3 || parts.length > 9 then false
  else
    match inner.findIdx? (·.isEmpty) with
    | some i =>
        let before := parts.take (i + 1)
        let behind := parts.drop (i + 2)
        let before := if before.head? == some [] then before.drop 1 else before
        let open? := (parts.head? == some []) && !before.isEmpty
        let behind' :=
          if behind.getLast? == some [] then behind.dropLast else behind
        let shut? := (behind.getLast? == some []) && !behind'.isEmpty
        (inner.filter (·.isEmpty)).length == 1 && !open? && !shut?
          && before.length + behind'.length < 8
          && before.all isGroup && behind'.all isGroup
    | none => parts.length == 8 && parts.all fun p => !p.isEmpty && isGroup p

/-- Whether a text is a long numeric address; its last part may be four octets,
which count for two groups, and a zone may follow. -/
def isLong (t : Text) : Bool :=
  let address := t.takeWhile (· != '%')
  let zone := t.drop (address.length + 1)
  let parts := Text.splitOn ':' address
  let zoneOk :=
    address.length == t.length || (!zone.isEmpty && !zone.contains '%')
  if address.contains '/' || address.isEmpty || parts.length < 3 || !zoneOk
  then false
  else
    match parts.getLast? with
    | some last =>
        if last.contains '.' then
          isOctets last && areGroups (parts.dropLast ++ [['0'], ['0']])
        else areGroups parts
    | none => false

def isFuture (t : Text) : Bool :=
  let version := (t.drop 1).takeWhile (fun c => (Hex.value? c).isSome)
  match t.drop (1 + version.length) with
  | '.' :: rest => !version.isEmpty && !rest.isEmpty && !rest.contains '\n'
  | _ => false

def checkBracketed (t : Text) : Except Fault Unit :=
  if t.head? = some 'v' then
    if isFuture t then .ok () else .error .invalidFutureHost
  else if isOctets t then .error .bracketedOctets
  else if isLong t then .ok ()
  else .error (.invalidHost t)

def disguisedRanges : List (Nat × Nat) :=
  [(0x2047, 0x2049), (0x2100, 0x2101), (0x2105, 0x2106), (0x2A74, 0x2A74),
    (0xFE13, 0xFE13),
   (0xFE16, 0xFE16), (0xFE55, 0xFE56), (0xFE5F, 0xFE5F), (0xFE6B, 0xFE6B),
   (0xFF03, 0xFF03), (0xFF0F, 0xFF0F), (0xFF1A, 0xFF1A), (0xFF1F, 0xFF20)]

def hostAndPort (authority : Text) : Text :=
  (authority.reverse.takeWhile (· != '@')).reverse

/-- Checks the host of an authority that holds brackets, perhaps those of its
user.  Nothing may stand before the brackets of a host, and behind them only a
port. -/
def checkBrackets (authority : Text) : Except Fault Unit :=
  let t := hostAndPort authority
  match t.dropWhile (· != '[') with
  | '[' :: inside =>
      let host := inside.takeWhile (· != ']')
      let behind := inside.drop (host.length + 1)
      if t.head? != some '[' || !(behind.isEmpty || behind.head? == some ':')
      then .error .invalidAddress
      else checkBracketed host
  | _ => checkBracketed (t.takeWhile (· != ':'))

def check (t : Text) : Except Fault Unit := do
  if t.contains '[' != t.contains ']' then throw .invalidAddress
  if t.contains '[' then checkBrackets t
  if t.any (inRanges disguisedRanges) then throw (.disguisedDelimiter t)

end Host
end InlineCompletion
