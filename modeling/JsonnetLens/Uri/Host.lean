import JsonnetLens.Text.Quoted
/-!
# Hosts in a URI

The authority of a URI is a host; a user and an at sign may stand before it, a colon and a service
number after it.  It is refused when its brackets do not pair or enclose anything but the whole
host, when the host in brackets is no IPv6 address, or when one of its characters has a
compatibility form with a delimiter in it.
-/
namespace JsonnetLens.Uri

/-- Why an authority is refused, or why a path has none. -/
inductive HostFault where
  /-- A bracket without its other half, or a pair that encloses anything but the whole host. -/
  | misplacedBrackets
  | notAnAddress (host : Text)
  | ipv4InBrackets
  | badFutureAddress
  | compatibilityForm (authority : Text)
  /-- A path begins with two slashes, and no slash ends the host between them and its end. -/
  | hostWithoutPath
  deriving DecidableEq, Repr

def HostFault.message : HostFault → Text
  | .misplacedBrackets => "Invalid IPv6 URL".toList
  | .notAnAddress host =>
    Quoted.quote (WideText.ofText host) ++ " does not appear to be an IPv4 or IPv6 address".toList
  | .ipv4InBrackets => "An IPv4 address cannot be in brackets".toList
  | .badFutureAddress => "IPvFuture address is invalid".toList
  | .compatibilityForm authority =>
    "netloc '".toList ++ authority ++
      "' contains invalid characters under NFKC normalization".toList
  | .hostWithoutPath => "substring not found".toList

/-! ## Addresses -/

/-- A number up to 255 without needless zeros. -/
def isOctet (t : Text) : Bool :=
  !t.isEmpty && t.length ≤ 3 && t.all Char.isDigit && (t.length = 1 || t.head? ≠ some '0') &&
    t.foldl (fun n c => 10 * n + (c.toNat - 0x30)) 0 ≤ 255

def isIPv4 (t : Text) : Bool :=
  let octets := t.splitOn '.'
  octets.length = 4 && octets.all isOctet

def isHexDigit (c : Char) : Bool :=
  c.isDigit || ('a' ≤ c && c ≤ 'f') || ('A' ≤ c && c ≤ 'F')

def isHextet (t : Text) : Bool := !t.isEmpty && t.length ≤ 4 && t.all isHexDigit

/-- An IPv4 address in the last place stands for two groups; `none` when the last place is neither
an IPv4 address nor free of dots. -/
def expandLast? (groups : List Text) : Option (List Text) :=
  match groups.getLast? with
  | none => some groups
  | some last =>
    if last.contains '.' then
      if isIPv4 last then some (groups.dropLast ++ [['0'], ['0']]) else none
    else some groups

/-- The groups on one side of a double colon; the empty group at the outer end is part of it. -/
def isSide (side : List Text) : Bool := side = [[]] || side.all isHextet

def sideLength (side : List Text) : Nat := if side = [[]] then 0 else side.length

/-- Eight groups, or fewer with one double colon in the place of the missing ones. -/
def areGroups (groups : List Text) : Bool :=
  let inner := (groups.drop 1).dropLast
  match inner.countP List.isEmpty with
  | 0 => groups.length = 8 && groups.all isHextet
  | 1 =>
    let before := groups.take (1 + inner.idxOf [])
    let after := groups.drop (before.length + 1)
    isSide before && isSide after && sideLength before + sideLength after ≤ 7
  | _ => false

def isIPv6 (t : Text) : Bool :=
  let (address, scopeOk) :=
    match Text.cutFirst? '%' t with
    | some (address, scope) => (address, !scope.isEmpty && !scope.contains '%')
    | none => (t, true)
  let groups := address.splitOn ':'
  scopeOk && groups.length ≥ 3 &&
    match expandLast? groups with
    | some groups => groups.length ≤ 9 && areGroups groups
    | none => false

/-- `v`, a hexadecimal version, a point and at least one character. -/
def isFutureAddress (t : Text) : Bool :=
  match t with
  | 'v' :: rest =>
    match rest.dropWhile isHexDigit with
    | '.' :: address => !(rest.takeWhile isHexDigit).isEmpty && !address.isEmpty
    | _ => false
  | _ => false

def checkBracketed (host : Text) : Except HostFault Unit :=
  if host.head? = some 'v' then
    if isFutureAddress host then .ok () else .error .badFutureAddress
  else if isIPv4 host then .error .ipv4InBrackets
  else if isIPv6 host then .ok ()
  else .error (.notAnAddress host)

/-- The authority without the user, whose name may hold anything. -/
def withoutUser (authority : Text) : Text :=
  ((Text.cutLast? '@' authority).map Prod.snd).getD authority

/-- The host of an authority with brackets in it: what they enclose, when nothing stands before them
and nothing but a colon next after them.  Where only the user has brackets, the host ends at the
first colon and still has to be an address. -/
def bracketedHost (authority : Text) : Except HostFault Text :=
  let place := withoutUser authority
  match Text.cutFirst? '[' place with
  | some ([], inside) =>
    match Text.cutFirst? ']' inside with
    | some (host, []) => .ok host
    | some (host, ':' :: _) => .ok host
    | some _ => .error .misplacedBrackets
    | none => .ok inside
  | some _ => .error .misplacedBrackets
  | none => .ok (((Text.cutFirst? ':' place).map Prod.fst).getD place)

def checkBrackets (authority : Text) : Except HostFault Unit :=
  match authority.contains '[', authority.contains ']' with
  | true, true =>
    match bracketedHost authority with
    | .error fault => .error fault
    | .ok host => checkBracketed host
  | false, false => .ok ()
  | _, _ => .error .misplacedBrackets

/-! ## Compatibility forms -/

/-- The characters whose compatibility form holds a slash, a question mark, a number sign, an at
sign or a colon. -/
def delimiterForms : List Nat :=
  [0x2047, 0x2048, 0x2049, 0x2100, 0x2101, 0x2105, 0x2106, 0x2A74, 0xFE13, 0xFE16, 0xFE55, 0xFE56,
    0xFE5F, 0xFE6B, 0xFF03, 0xFF0F, 0xFF1A, 0xFF1F, 0xFF20]

def checkForms (authority : Text) : Except HostFault Unit :=
  if authority.any fun c => delimiterForms.contains c.toNat then
    .error (.compatibilityForm authority)
  else .ok ()

end JsonnetLens.Uri
