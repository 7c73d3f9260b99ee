import PimDiscovery.Text

/-! URL references as the `url` crate reads them against a base of a special scheme other than `file`:
whether a reference is a URL of its own, or only a path, a query and a fragment on the base. It follows the
URL Standard, but for references of three slashes. -/

namespace PimDiscovery.Whatwg

def isC0OrSpace (c : Char) : Bool := c.toNat ≤ 0x20

def isTabOrNewline (c : Char) : Bool := c == '\t' || c == '\n' || c == '\r'

def isSchemeChar (c : Char) : Bool := c.isAlphanum || c == '+' || c == '-' || c == '.'

/-- A backslash is one too under a special scheme. -/
def isSlash (c : Char) : Bool := c == '/' || c == '\\'

def clean (input : String) : List Char :=
  (Text.trimBy isC0OrSpace input.toList).filter fun c => !isTabOrNewline c

def schemeOf (cs : List Char) : Option (String × List Char) :=
  if (cs.head?.map Char.isAlpha).getD false then
    match cs.dropWhile isSchemeChar with
    | ':' :: rest =>
      some (Text.toAsciiLowercase (String.ofList (cs.takeWhile isSchemeChar)), rest)
    | _ => none
  else none

inductive Reference where
  | url (text : String)
  | path (text : String)
  /-- An authority with no host in it, of which there is no URL. -/
  | hostless
  deriving DecidableEq, Repr

def relative (scheme : String) (cs : List Char) : Reference :=
  match cs with
  | a :: b :: rest =>
    if isSlash a && isSlash b then
      .url (scheme ++ "://" ++ String.ofList (rest.dropWhile isSlash))
    else .path (String.ofList cs)
  | _ => .path (String.ofList cs)

/-- Without a scheme, what stands behind `//` is the authority: no further slash is passed over. -/
def schemeless (scheme : String) (cs : List Char) : Reference :=
  match cs with
  | '/' :: '/' :: c :: _ => if isSlash c then .hostless else relative scheme cs
  | _ => relative scheme cs

/-- The scheme of the base is as good as none, but for slashes. -/
def reference (scheme input : String) : Reference :=
  match schemeOf (clean input) with
  | some (own, rest) =>
    if own = scheme then relative scheme rest else .url (String.ofList (clean input))
  | none => schemeless scheme (clean input)

example : reference "https" "\t/\\evil.example/" = .url "https://evil.example/" := by decide
example : reference "https" "https:dav/" = .path "dav/" := by decide
example : reference "https" "///evil.example/" = .hostless := by decide

end PimDiscovery.Whatwg
