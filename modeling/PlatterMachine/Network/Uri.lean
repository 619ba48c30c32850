import PlatterMachine.Network.IpAddress

/-!
# Resource identifiers

What has to hold of a URI in ASCII characters so that it can be taken apart, and the host that it
names. Characters are bytes here: those above 127 come from escapes only.
-/

namespace PlatterMachine.Uri

def isControl (c : Char) : Bool := c.toNat < 0x20 || c.toNat = 0x7F

/-- Reads a text in which a percent sign and two hexadecimal digits stand for a byte. Characters
have to pass `plain`, and bytes given so have to pass `escaped`. -/
def unescape? (plain escaped : Char → Bool) : List Char → Option (List Char)
  | [] => some []
  | c :: rest =>
    if c ≠ '%' then
      if plain c then (unescape? plain escaped rest).map (c :: ·) else none
    else
      match rest with
      | hi :: lo :: rest =>
        match Hex.value? hi, Hex.value? lo with
        | some h, some l =>
          let b := Char.ofNat (16 * h + l)
          if escaped b then (unescape? plain escaped rest).map (b :: ·) else none
        | _, _ => none
      | _ => none

def hasValidEscapes (cs : List Char) : Bool :=
  (unescape? (fun _ => true) (fun _ => true) cs).isSome

def isHostChar (c : Char) : Bool := c.isAlphanum || "!$&'()*+,;=:[]<>\"-_.~".contains c

/-- A host, in which only percent signs and bytes that are not ASCII are escaped. -/
def unescapeHost? : List Char → Option (List Char) :=
  unescape? isHostChar fun b => b = '%' || 0x80 ≤ b.toNat

/-- A zone, in which also what could stand for itself is escaped, and blanks. -/
def unescapeZone? : List Char → Option (List Char) :=
  unescape? isHostChar fun b => b = '%' || b = ' ' || isHostChar b

def isUserChar (c : Char) : Bool := c.isAlphanum || "-._:~!$&'()*+,;=%@".contains c

def isUser (cs : List Char) : Bool := cs.all isUserChar && hasValidEscapes cs

def isPort : List Char → Bool
  | [] => true
  | ':' :: digits => digits.all Char.isDigit
  | _ => false

/-- An escaped percent sign, which starts a zone, and what stands before it. -/
def cutZone : List Char → List Char × List Char
  | [] => ([], [])
  | '%' :: '2' :: '5' :: rest => ([], '%' :: '2' :: '5' :: rest)
  | c :: cs =>
    let (before, zone) := cutZone cs
    (c :: before, zone)

/-- A host in brackets, which is an address of sixteen bytes, and its port. -/
def bracketedHost? (inner : List Char) : Option (List Char) := do
  let (address, port) ← Fields.cutLast? ']' inner
  guard (isPort port)
  let (address, zone) := cutZone address
  let address := (← unescapeHost? address) ++ (← unescapeZone? zone)
  guard (IpAddress.isScopedV6 address)
  some ('[' :: address ++ ']' :: port)

/-- A host and its port. A bracket opens only at the start. -/
def hostAndPort? (cs : List Char) : Option (List Char) := do
  match cs with
  | '[' :: inner =>
    guard (!inner.contains '[')
    bracketedHost? inner
  | cs =>
    guard (!cs.contains '[')
    guard ((Fields.cutLast? ':' cs).all fun (_, digits) => digits.all Char.isDigit)
    unescapeHost? cs

def authorityHost? (cs : List Char) : Option (List Char) :=
  match Fields.cutLast? '@' cs with
  | none => hostAndPort? cs
  | some (user, host) => if isUser user then hostAndPort? host else none

def isSchemeChar (c : Char) : Bool := c.isAlphanum || c = '+' || c = '-' || c = '.'

/-- The scheme before the first colon, empty if there is none, and the rest. A scheme starts with a
letter; a colon with nothing before it is refused. -/
def cutScheme? (cs : List Char) : Option (List Char × List Char) :=
  let scheme := cs.takeWhile isSchemeChar
  match scheme, cs.dropWhile isSchemeChar with
  | [], ':' :: _ => none
  | c :: scheme, ':' :: rest => some (if c.isAlpha then (c :: scheme, rest) else ([], cs))
  | _, _ => some ([], cs)

/-- The host of what stands behind a scheme and before a query; empty without an authority. -/
def hierarchyHost? (hasScheme : Bool) (cs : List Char) : Option (List Char) := do
  match cs with
  | '/' :: '/' :: rest =>
    if hasScheme || rest.head? ≠ some '/' then
      guard (hasValidEscapes (rest.dropWhile (· ≠ '/')))
      authorityHost? (Fields.before '/' rest)
    else
      guard (hasValidEscapes cs)
      some []
  | '/' :: _ =>
    guard (hasValidEscapes cs)
    some []
  | cs =>
    guard (hasScheme || (!(Fields.before '/' cs).contains ':' && hasValidEscapes cs))
    some []

/-- The host that a URI names, with its port; empty if it names none. `none` if the URI cannot be
taken apart. -/
def host? (cs : List Char) : Option (List Char) := do
  let main := Fields.before '#' cs
  guard (!main.any isControl && hasValidEscapes (cs.dropWhile (· ≠ '#')))
  let (scheme, rest) ← cutScheme? main
  hierarchyHost? (!scheme.isEmpty) (Fields.before '?' rest)

end PlatterMachine.Uri
