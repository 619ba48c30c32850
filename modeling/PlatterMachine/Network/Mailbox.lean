import PlatterMachine.Text.Basic

/-!
# Domain names and mailboxes

A domain name has labels between points; what a label may hold is not restricted beyond visible
characters. A mailbox is a local part and a domain with an at sign between them. The local part is
quoted, or made of atoms between points; in both a backslash takes the next character for itself.
-/

namespace PlatterMachine.Domain

def isLabel (label : List Char) : Bool :=
  !label.isEmpty && label.all fun c => 33 ≤ c.toNat && c.toNat ≤ 126

def isName (cs : List Char) : Bool :=
  cs.isEmpty || (Fields.split '.' cs).all isLabel

/-- A name that stands for itself and what lies below it, or, with a point in front, for what lies
below it only. -/
def isConstraint (cs : List Char) : Bool :=
  match cs with
  | '.' :: rest => !rest.isEmpty && isName rest
  | cs => isName cs

end PlatterMachine.Domain

namespace PlatterMachine.Mailbox

def isQuotedText (c : Char) : Bool :=
  let n := c.toNat
  n = 11 || n = 12 || n = 32 || n = 33 || n = 127 || (1 ≤ n && n ≤ 8) || (14 ≤ n && n ≤ 31) ||
    (35 ≤ n && n ≤ 91) || (93 ≤ n && n ≤ 126)

def isEscaped (c : Char) : Bool :=
  let n := c.toNat
  n = 11 || n = 12 || (1 ≤ n && n ≤ 9) || (14 ≤ n && n ≤ 127)

def behindQuoted? : List Char → Option (List Char)
  | [] => none
  | '"' :: rest => some rest
  | ['\\'] => none
  | '\\' :: c :: rest => if isEscaped c then behindQuoted? rest else none
  | c :: rest => if isQuotedText c then behindQuoted? rest else none

def isAtomText (c : Char) : Bool :=
  c.isAlphanum || "!#$%&'*+-/=?^_`\x7b|\x7d~.".contains c

def atoms? : List Char → Option (List Char × List Char)
  | [] => some ([], [])
  | ['\\'] => none
  | '\\' :: c :: rest => (atoms? rest).map fun (read, rest) => (c :: read, rest)
  | c :: rest =>
    if isAtomText c then (atoms? rest).map fun (read, rest) => (c :: read, rest)
    else some ([], c :: rest)

def behindLocal? : List Char → Option (List Char)
  | '"' :: rest => behindQuoted? rest
  | cs => do
    let (read, rest) ← atoms? cs
    guard ((Fields.split '.' read).all (!·.isEmpty))
    some rest

/-- The domain is a name, which no second at sign stands in. -/
def isMailbox (cs : List Char) : Bool :=
  match behindLocal? cs with
  | some ('@' :: domain) => Domain.isName domain && !domain.contains '@'
  | _ => false

end PlatterMachine.Mailbox
