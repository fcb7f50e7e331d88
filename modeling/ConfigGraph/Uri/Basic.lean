import ConfigGraph.Text.Quoted
import ConfigGraph.Text.Utf8
import ConfigGraph.Uri.Address

/-!
# URIs

Takes a URI apart into a scheme, an authority and a path.  The query, the fragment and, for some
schemes, the parameters of the last segment belong to none of them.  The host of an authority may
stand in brackets, and must be an address then.
-/

namespace ConfigGraph

/-- The parts of a URI. -/
structure Uri where
  /-- The scheme in small letters, or nothing. -/
  scheme : Text
  /-- What stands behind two slashes. -/
  authority : Text
  path : Text
  deriving DecidableEq

namespace Uri

/-- What is wrong with a URI, or with a path that is to become one. -/
inductive Fault where
  /-- Brackets do not enclose the whole host. -/
  | misplacedBracket
  /-- The address in brackets announces a later version, and is not of its form. -/
  | laterVersion
  /-- An address of version 4 stands in brackets. -/
  | version4InBrackets
  /-- The text in brackets is no address. -/
  | noAddress (text : Text)
  /-- A character of the authority is as good as one that separates the parts of a URI. -/
  | disguisedSeparator (authority : Text)
  /-- A path has no root. -/
  | relativePath
  /-- A path holds surrogates. -/
  | unencodable (fault : Text.EncodeFault)
  deriving DecidableEq

def Fault.message : Fault → Text
  | .misplacedBracket => "Invalid IPv6 URL"
  | .laterVersion => "IPvFuture address is invalid"
  | .version4InBrackets => "An IPv4 address cannot be in brackets"
  | .noAddress text => Text.quoted text ++ " does not appear to be an IPv4 or IPv6 address"
  | .disguisedSeparator authority =>
      "netloc '" ++ authority ++ "' contains invalid characters under NFKC normalization"
  | .relativePath => "relative path can't be expressed as a file URI"
  | .unencodable fault => fault.message

/-! ## Cleaning -/

/-- Whether a code point is left out at the start of a URI. -/
def isControlOrSpace (code : CodePoint) : Bool := code.value ≤ 0x20

/-- Whether a code point is left out everywhere in a URI. -/
def isBreak (code : CodePoint) : Bool :=
  code == ('\t' : CodePoint) || code == ('\r' : CodePoint) || code == ('\n' : CodePoint)

/-- A URI without what is left out. -/
def clean (text : Text) : Text :=
  (text.dropWhile isControlOrSpace).filter fun code => !isBreak code

/-! ## Scheme -/

/-- Whether a code point may stand in a scheme. -/
def isSchemeCode (code : CodePoint) : Bool :=
  code.isAsciiLetter || code.isAsciiDigit || code == ('+' : CodePoint) ||
    code == ('-' : CodePoint) || code == ('.' : CodePoint)

/-- The scheme of a URI and what is behind its colon.  A scheme starts with a letter. -/
def splitScheme (text : Text) : Text × Text :=
  let scheme := text.takeWhile isSchemeCode
  match text.head?, text.drop scheme.length with
  | some first, colon :: rest =>
      if colon = ':' ∧ first.isAsciiLetter then (Text.toAsciiLower scheme, rest) else ([], text)
  | _, _ => ([], text)

/-! ## Authority -/

/-- Whether a code point ends an authority. -/
def endsAuthority (code : CodePoint) : Bool :=
  code == ('/' : CodePoint) || code == ('?' : CodePoint) || code == ('#' : CodePoint)

/-- The authority of a URI without its scheme, and what is behind it. -/
def splitAuthority (text : Text) : Text × Text :=
  if text.startsWith "//" then
    let rest := text.drop 2
    (rest.takeWhile fun code => !endsAuthority code,
      rest.dropWhile fun code => !endsAuthority code)
  else ([], text)

/-- Whether a text is an address of a version after 6: the letter v, a hexadecimal number, a point
and something more. -/
def isLaterVersion (text : Text) : Bool :=
  let behind := text.drop 1
  let version := behind.takeWhile fun code => code.hexDigit?.isSome
  let rest := behind.drop version.length
  text.head? == some ('v' : CodePoint) && version != [] &&
    rest.head? == some ('.' : CodePoint) && 2 ≤ rest.length

/-- Checks a host in brackets. -/
def checkBracketed (host : Text) : Except Fault Unit :=
  if host.startsWith "v" then
    if isLaterVersion host then .ok () else .error .laterVersion
  else if Address.isVersion4 host then .error .version4InBrackets
  else if Address.isVersion6 host then .ok ()
  else .error (.noAddress host)

/-- The host and the port of an authority, which stand behind the name of a user. -/
def hostAndPort (authority : Text) : Text :=
  (authority.reverse.takeWhile (· != ('@' : CodePoint))).reverse

/-- Checks a host that starts behind an opening bracket: what is behind the closing one is a port. -/
def checkEnclosed (behind : Text) : Except Fault Unit :=
  let host := behind.takeWhile (· != (']' : CodePoint))
  match behind.drop (host.length + 1) with
  | [] => checkBracketed host
  | colon :: _ => if colon = ':' then checkBracketed host else .error .misplacedBracket

/-- Checks the host of an authority that holds brackets.  Nothing may stand in front of the opening
one.  Brackets that belong to the name of a user make the host count as one in brackets. -/
def checkHost (authority : Text) : Except Fault Unit :=
  let place := hostAndPort authority
  if place.contains ('[' : CodePoint) then
    match place with
    | bracket :: behind => if bracket = '[' then checkEnclosed behind else .error .misplacedBracket
    | [] => .error .misplacedBracket
  else checkBracketed (place.takeWhile (· != (':' : CodePoint)))

def checkBrackets (authority : Text) : Except Fault Unit :=
  let opens := authority.contains ('[' : CodePoint)
  let closes := authority.contains (']' : CodePoint)
  if opens && closes then checkHost authority
  else if opens || closes then .error .misplacedBracket
  else .ok ()

/-- Whether the compatible form of a code point outside of ASCII holds a character that separates
the parts of a URI. -/
def isDisguisedSeparator (code : CodePoint) : Bool :=
  code.within 0x2047 0x2049 || code.within 0x2100 0x2101 || code.within 0x2105 0x2106 ||
    code.value == 0x2a74 || code.value == 0xfe13 || code.value == 0xfe16 ||
    code.within 0xfe55 0xfe56 || code.value == 0xfe5f || code.value == 0xfe6b ||
    code.value == 0xff03 || code.value == 0xff0f || code.value == 0xff1a ||
    code.within 0xff1f 0xff20

/-- Checks that no character of an authority is as good as a separator. -/
def checkSeparators (authority : Text) : Except Fault Unit :=
  if authority.any isDisguisedSeparator then .error (.disguisedSeparator authority) else .ok ()

/-! ## Path -/

/-- What stands before the query and the fragment. -/
def beforeQuery (text : Text) : Text :=
  text.takeWhile fun code => code != ('?' : CodePoint) && code != ('#' : CodePoint)

/-- The schemes whose paths may have parameters.  A URI without a scheme may have some, too. -/
def schemesWithParameters : List Text :=
  ["", "ftp", "hdl", "prospero", "http", "imap", "https", "shttp", "rtsp", "rtspu", "sip", "sips",
    "mms", "sftp", "tel"]

/-- A path without the parameters of its last segment. -/
def dropParameters (path : Text) : Text :=
  let last := (path.reverse.takeWhile (· != ('/' : CodePoint))).reverse
  path.take (path.length - last.length) ++ last.takeWhile (· != (';' : CodePoint))

def parse (text : Text) : Except Fault Uri := do
  let (scheme, rest) := splitScheme (clean text)
  let (authority, rest) := splitAuthority rest
  checkBrackets authority
  checkSeparators authority
  let path := beforeQuery rest
  return ⟨scheme, authority,
    if schemesWithParameters.contains scheme then dropParameters path else path⟩

end Uri

end ConfigGraph
