import NavDirections.Text.Quoted

/-!
# URLs

Enough of the form of a URL to tell whether it names a scheme and a host: the scheme before the
first colon, and the authority after two slashes.  Addresses in brackets have to be valid.
-/

namespace NavDirections

structure UrlParts where
  scheme : Text
  authority : Text
deriving DecidableEq

inductive UrlFault where
  | misplacedBrackets
  | badFutureAddress
  | noAddress (host : Text)
  | bracketedV4
  | foldsToDelimiter (authority : Text)
deriving DecidableEq

def UrlFault.message : UrlFault → Text
  | misplacedBrackets => "Invalid IPv6 URL"
  | badFutureAddress => "IPvFuture address is invalid"
  | noAddress host => host.quoted ++ " does not appear to be an IPv4 or IPv6 address"
  | bracketedV4 => "An IPv4 address cannot be in brackets"
  | foldsToDelimiter authority =>
    "netloc '" ++ authority ++ "' contains invalid characters under NFKC normalization"

namespace Url

/-- A decimal number up to 255 without a leading zero. -/
def isOctet (t : Text) : Bool :=
  !t.isEmpty && t.all CodePoint.isAsciiDigit && t.length ≤ 3
    && (t.length == 1 || t.head? != some (CodePoint.ofChar '0'))
    && t.foldl (fun n c => n * 10 + (c.val - 0x30)) 0 ≤ 255

/-- Four octets between dots. -/
def isAddressV4 (t : Text) : Bool :=
  let octets := t.splitOn '.'
  octets.length == 4 && octets.all isOctet

/-- One to four hexadecimal digits. -/
def isGroup (t : Text) : Bool :=
  !t.isEmpty && t.length ≤ 4 && t.all (·.hexValue?.isSome)

/-- The groups between the colons of an address; a dotted address at the end counts as two of
them. -/
def groups? (t : Text) : Option (List Text) :=
  let parts := t.splitOn ':'
  if parts.length < 3 then none
  else match parts.getLast? with
    | some last =>
      if last.contains (CodePoint.ofChar '.') then
        if isAddressV4 last then some (parts.dropLast ++ [("0" : Text), "0"]) else none
      else some parts
    | none => none

/-- Are the groups those of an address?  There are eight of them, or fewer around one gap; a colon
at either end belongs to the gap. -/
def areGroups (parts : List Text) : Bool :=
  if 9 < parts.length then false
  else
    let inner := (parts.drop 1).dropLast
    match inner.findIdx? List.isEmpty with
    | none => parts.length == 8 && parts.all isGroup
    | some i =>
      let before := parts.take (i + 1)
      let after := parts.drop (i + 2)
      let high := if before.head? == some [] then before.drop 1 else before
      let low := if after.getLast? == some [] then after.dropLast else after
      (inner.filter List.isEmpty).length == 1
        && (before.head? != some [] || high.isEmpty)
        && (after.getLast? != some [] || low.isEmpty)
        && high.length + low.length < 8 && high.all isGroup && low.all isGroup

/-- Groups between colons, with an optional scope behind a percent sign. -/
def isAddressV6 (t : Text) : Bool :=
  if t.contains (CodePoint.ofChar '/') then false
  else
    let (address, goodScope) := match t.cutFirst? '%' with
      | some (address, scope) =>
        (address, !scope.isEmpty && !scope.contains (CodePoint.ofChar '%'))
      | none => (t, true)
    goodScope && (groups? address).any areGroups

/-- A `v`, hexadecimal digits, a dot and something after it. -/
def isFutureAddress (t : Text) : Bool :=
  match t.cutFirst? '.' with
  | some (version, rest) =>
    version.head? == some (CodePoint.ofChar 'v') && 1 < version.length
      && (version.drop 1).all (·.hexValue?.isSome) && !rest.isEmpty
      && !rest.contains (CodePoint.ofChar '\n')
  | none => false

def checkHost (host : Text) : Except UrlFault Unit :=
  if host.head? = some (CodePoint.ofChar 'v') then
    if isFutureAddress host then .ok () else .error .badFutureAddress
  else if isAddressV4 host then .error .bracketedV4
  else if isAddressV6 host then .ok ()
  else .error (.noAddress host)

/-- Code points that stand for a delimiter once compatible forms are unified. -/
def foldedDelimiters : List Nat :=
  [0x2047, 0x2048, 0x2049, 0x2100, 0x2101, 0x2105, 0x2106, 0x2a74, 0xfe13, 0xfe16, 0xfe55, 0xfe56,
   0xfe5f, 0xfe6b, 0xff03, 0xff0f, 0xff1a, 0xff1f, 0xff20]

def endsAuthority (c : CodePoint) : Bool := c == '/' || c == '?' || c == '#'

/-- Checks an authority with brackets.  The brackets hold the whole host, behind the last at sign:
nothing stands in front of them, and at most a port behind them. -/
def checkBracketed (authority : Text) : Except UrlFault Unit :=
  let hostAndPort := ((authority.cutLast? '@').map (·.2)).getD authority
  match hostAndPort.cutFirst? '[' with
  | none => checkHost (((hostAndPort.cutFirst? ':').map (·.1)).getD hostAndPort)
  | some (_ :: _, _) => .error .misplacedBrackets
  | some ([], bracketed) =>
    match bracketed.cutFirst? ']' with
    | none => checkHost bracketed
    | some (host, port) =>
      if port.isEmpty || port.head? == some (CodePoint.ofChar ':') then checkHost host
      else .error .misplacedBrackets

def checkAuthority (authority : Text) : Except UrlFault Unit := do
  let opens := authority.contains (CodePoint.ofChar '[')
  let closes := authority.contains (CodePoint.ofChar ']')
  if opens != closes then .error .misplacedBrackets
  if opens then checkBracketed authority
  if authority.any fun c => foldedDelimiters.contains c.val then
    .error (.foldsToDelimiter authority)

def isSchemeLetter (c : CodePoint) : Bool :=
  c.isAsciiLetter || c.isAsciiDigit || c == '+' || c == '-' || c == '.'

/-- The scheme of a URL and what follows its colon; without a scheme all of the URL follows. -/
def cutScheme (t : Text) : Text × Text :=
  match t.cutFirst? ':' with
  | some (scheme, rest) =>
    if (scheme.head?.map CodePoint.isAsciiLetter).getD false && scheme.all isSchemeLetter then
      (scheme, rest)
    else ([], t)
  | none => ([], t)

/-- The parts of a URL.  Blanks and control characters in front do not count, nor tabs and line
ends anywhere. -/
def parts (url : Text) : Except UrlFault UrlParts := do
  let kept := (url.dropWhile fun c => c.val ≤ 0x20).filter fun c : CodePoint =>
    c != '\t' && c != '\r' && c != '\n'
  let (scheme, rest) := cutScheme kept
  match Text.dropStart? "//" rest with
  | some rest =>
    let authority := rest.takeWhile fun c => !endsAuthority c
    checkAuthority authority
    .ok ⟨scheme, authority⟩
  | none => .ok ⟨scheme, []⟩

end Url
end NavDirections
