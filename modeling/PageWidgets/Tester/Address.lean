import PageWidgets.Text.Fold
import PageWidgets.Text.Percent
import PageWidgets.Text.Split

/-! Web addresses: what makes a text one. An address starts with a scheme; what follows is checked as far as it
    can be wrong, which is the host and the port. -/

namespace PageWidgets
namespace Tester
namespace Address

/-- A cause for refusing an address. -/
inductive Fault where
  | noScheme
  | emptyHost
  | badDomain
  | badHostCharacter
  | badPort
  | badIpv4
  | badIpv6
  deriving DecidableEq, Repr

namespace Fault

def message : Fault → String
  | .noScheme => "relative URL without a base"
  | .emptyHost => "empty host"
  | .badDomain => "invalid international domain name"
  | .badHostCharacter => "invalid domain character"
  | .badPort => "invalid port number"
  | .badIpv4 => "invalid IPv4 address"
  | .badIpv6 => "invalid IPv6 address"

end Fault

/-! ### Characters -/

def isLetter (c : Char) : Bool :=
  (0x41 ≤ c.toNat && c.toNat ≤ 0x5A) || (0x61 ≤ c.toNat && c.toNat ≤ 0x7A)

def isDecimal (c : Char) : Bool := 0x30 ≤ c.toNat && c.toNat ≤ 0x39

def isHex (c : Char) : Bool := (Text.hexValue c.toNat).isSome

/-- Blanks and controls, which are dropped at both ends. -/
def isEdge (c : Char) : Bool := c.toNat ≤ 0x20

/-- Line breaks and tabs, which are dropped everywhere. -/
def isSkipped (c : Char) : Bool := c = '\t' || c = '\n' || c = '\r'

/-- The characters of an address that count. -/
def relevant (l : List Char) : List Char :=
  (((l.dropWhile isEdge).reverse.dropWhile isEdge).reverse).filter fun c => !isSkipped c

/-- The number that digits spell in a base. -/
def numeral (base : Nat) (l : List Char) : Nat :=
  l.foldl (fun n c => base * n + (Text.hexValue c.toNat).getD 0) 0

/-! ### Hosts -/

/-- A group of an IPv6 address: one to four hex digits. -/
def isGroup (l : List Char) : Bool := 1 ≤ l.length && l.length ≤ 4 && l.all isHex

/-- A number up to 255 without leading zeros. -/
def isByte (l : List Char) : Bool :=
  !l.isEmpty && l.length ≤ 3 && l.all isDecimal && numeral 10 l ≤ 255 && (l.length = 1 || l.head? ≠ some '0')

/-- Four such numbers with points between them. -/
def isQuad (l : List Char) : Bool :=
  let ps := Text.split '.' l
  ps.length = 4 && ps.all isByte

/-- How many groups stand between colons; a quad at the end, where it is allowed, is worth two. -/
def groupCount (quad : Bool) (l : List Char) : Option Nat :=
  if l.isEmpty then some 0
  else
    let groups := Text.split ':' l
    let last := groups.getLast?.getD []
    if groups.all isGroup then some groups.length
    else if quad && groups.dropLast.all isGroup && isQuad last then some (groups.length + 1)
    else none

/-- What stands before and after the first two colons in a row. -/
def splitGap : List Char → Option (List Char × List Char)
  | ':' :: ':' :: rest => some ([], rest)
  | c :: rest => (splitGap rest).map fun (a, b) => (c :: a, b)
  | [] => none

/-- Is that an IPv6 address, without its brackets? Eight groups, or fewer with one gap. -/
def isIpv6 (l : List Char) : Bool :=
  match splitGap l with
  | none => groupCount true l = some 8
  | some (a, b) =>
    match groupCount false a, groupCount true b with
    | some m, some n => m + n ≤ 7
    | _, _ => false

/-- The number that a part of an IPv4 address spells: hex after `0x`, octal after `0`, else decimal. -/
def ipv4Number : List Char → Option Nat
  | [] => none
  | '0' :: 'x' :: rest => if rest.all isHex then some (numeral 16 rest) else none
  | '0' :: 'X' :: rest => if rest.all isHex then some (numeral 16 rest) else none
  | '0' :: c :: rest =>
    if (c :: rest).all fun d => isDecimal d && d.toNat < 0x38 then some (numeral 8 (c :: rest)) else none
  | l => if l.all isDecimal then some (numeral 10 l) else none

/-- The parts of a host between points; one point at the end does not count. -/
def hostParts (l : List Char) : List (List Char) :=
  let ps := Text.split '.' l
  if 1 < ps.length ∧ ps.getLast? = some [] then ps.dropLast else ps

/-- Does the host end in a number, so that all of it has to be an IPv4 address? -/
def endsInNumber (l : List Char) : Bool :=
  match (hostParts l).getLast? with
  | some last => (!last.isEmpty && last.all isDecimal) || (ipv4Number last).isSome
  | none => false

/-- Is that an IPv4 address? The last number fills the bytes that are left. -/
def isIpv4 (l : List Char) : Bool :=
  let numbers := (hostParts l).map ipv4Number
  numbers.length ≤ 4
    && numbers.all (·.isSome)
    && (numbers.dropLast.all fun n => n.getD 0 ≤ 255)
    && (numbers.getLast?.join.getD 0) < Nat.pow 256 (5 - numbers.length)

/-- Characters that stand in no host. -/
def isHostDelimiter (c : Char) : Bool :=
  c.toNat = 0 || " \t\n\r#/:<>?@[\\]^|".toList.contains c

/-- Characters that stand in no domain. -/
def isDomainDelimiter (c : Char) : Bool :=
  isHostDelimiter c || c.toNat < 0x20 || c = '%' || c.toNat = 0x7F || c = '\uFFFD'

/-- The characters of a host with its percent forms read. Bytes that are no text give a character that stands in
    no domain. -/
def unescaped (l : List Char) : List Char :=
  match Text.ofUtf8 (Text.percentDecode (Text.utf8 l)) with
  | .ok cs => cs
  | .error _ => ['\uFFFD']

/-- The check of a host between brackets. -/
def checkBracketed (l : List Char) : Except Fault Unit :=
  if l.getLast? = some ']' ∧ isIpv6 (l.drop 1).dropLast then .ok () else .error .badIpv6

/-- The check of a host of a scheme that needs one. -/
def checkDomain (l : List Char) : Except Fault Unit :=
  if l.head? = some '[' then checkBracketed l
  else
    let cs := unescaped l
    if cs.any isDomainDelimiter then .error .badDomain
    else if endsInNumber cs then if isIpv4 cs then .ok () else .error .badIpv4
    else .ok ()

/-- The check of a host of any other scheme. -/
def checkOther (l : List Char) : Except Fault Unit :=
  if l.head? = some '[' then checkBracketed l
  else if l.any isHostDelimiter then .error .badHostCharacter
  else .ok ()

/-! ### Addresses -/

/-- The kinds of scheme: one that needs a host, files, and all others. -/
inductive Kind where
  | hosted
  | file
  | other
  deriving DecidableEq, Repr

/-- The kind of a scheme. -/
def Kind.ofScheme (s : String) : Kind :=
  if s = "file" then .file
  else if ["http", "https", "ws", "wss", "ftp"].contains s then .hosted
  else .other

/-- Does the character end the part before the path? -/
def endsAuthority (k : Kind) (c : Char) : Bool :=
  c = '/' || c = '?' || c = '#' || (c = '\\' && k ≠ .other)

/-- What stands before and after the last `@`. -/
def splitUser (l : List Char) : Option (List Char × List Char) :=
  if l.contains '@' then
    some (((l.reverse.dropWhile (· ≠ '@')).drop 1).reverse, (l.reverse.takeWhile (· ≠ '@')).reverse)
  else none

/-- The host, up to a colon outside brackets, and what follows it. -/
def splitHost : Bool → List Char → List Char × List Char
  | _, [] => ([], [])
  | inside, c :: rest =>
    if c = ':' ∧ !inside then ([], c :: rest)
    else
      let inside := if c = '[' then true else if c = ']' then false else inside
      let (host, after) := splitHost inside rest
      (c :: host, after)

/-- The check of a port: digits, up to 65535. It ends at a backslash, in whatever scheme. -/
def checkPort (l : List Char) : Except Fault Unit :=
  let digits := l.takeWhile (· ≠ '\\')
  if digits.all isDecimal ∧ numeral 10 digits ≤ 65535 then .ok () else .error .badPort

/-- The check of a host and the port after it. -/
def checkHostPort (k : Kind) (named : Bool) (l : List Char) : Except Fault Unit :=
  let (host, after) := splitHost false l
  if host.isEmpty then
    if k = .hosted ∨ named ∨ !after.isEmpty then .error .emptyHost else .ok ()
  else
    match if k = .hosted then checkDomain host else checkOther host with
    | .error f => .error f
    | .ok () => checkPort (after.drop 1)

/-- The check of what follows the slashes: a user, a host and a port, up to the path. A user with a name or a
    password needs a host, and so does an empty one with a path. -/
def checkAuthority (k : Kind) (l : List Char) : Except Fault Unit :=
  let authority := l.takeWhile fun c => !endsAuthority k c
  match splitUser authority with
  | none => checkHostPort k false authority
  | some (user, rest) =>
    if user.isEmpty ∧ rest.isEmpty ∧ l.length ≠ authority.length then .error .emptyHost
    else checkHostPort k (!user.isEmpty && user ≠ [':']) rest

/-- A drive letter, which is part of the path of a file. -/
def isDrive : List Char → Bool
  | [a, b] => isLetter a && (b = ':' || b = '|')
  | _ => false

def isSlash (c : Char) : Bool := c = '/' || c = '\\'

/-- The check of what follows the scheme of a file. -/
def checkFile (l : List Char) : Except Fault Unit :=
  match l with
  | a :: b :: rest =>
    if isSlash a ∧ isSlash b then
      let host := rest.takeWhile fun c => !endsAuthority .file c
      if host.isEmpty ∨ isDrive host then .ok () else checkDomain host
    else .ok ()
  | _ => .ok ()

/-- The scheme in lower case, and what follows its colon. -/
def splitScheme (l : List Char) : Option (String × List Char) :=
  match Text.splitOnce ':' l with
  | none => none
  | some (scheme, rest) =>
    let allowed := scheme.all fun c => isLetter c || isDecimal c || c = '+' || c = '-' || c = '.'
    if (scheme.head?.map isLetter).getD false ∧ allowed then
      some (String.ofList (scheme.map Text.lowerAscii), rest)
    else none

/-- Accepts a text that is an address. -/
def check (text : String) : Except Fault Unit :=
  match splitScheme (relevant text.toList) with
  | none => .error .noScheme
  | some (scheme, rest) =>
    match Kind.ofScheme scheme with
    | .file => checkFile rest
    | .hosted => checkAuthority .hosted (rest.dropWhile isSlash)
    | .other =>
      match rest with
      | '/' :: '/' :: rest => checkAuthority .other rest
      | _ => .ok ()

/-- The address that a visitor means: without a scheme it is taken as a host on the secure web. -/
def complete (text : String) : Except Fault String :=
  match check text with
  | .ok () => .ok text
  | .error .noScheme =>
    match check ("https://" ++ text) with
    | .ok () => .ok ("https://" ++ text)
    | .error f => .error f
  | .error f => .error f

end Address
end Tester
end PageWidgets
