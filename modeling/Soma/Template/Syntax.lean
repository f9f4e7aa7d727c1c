import Soma.Lib.Checked
import Soma.Lib.Serial
import Soma.Lib.Text

/-! # Shape rules of texts

The rules for domains, users, modes, timeouts, guest paths and environment names, and the detection of
secret material in a literal. Texts are read character by character and measured in bytes: the byte
tests of the source accept and look for ASCII bytes only, and these stand in UTF-8 for the ASCII
characters.
-/

namespace Soma.Template

open Soma.Lib Soma.Text

/-- Why one value failed the shape rules of its field. -/
inductive InvalidReason where
  | zero
  | exceedsMaximum (maximum : U64)
  | empty
  | notAbsolutePath
  | notNormalizedPath
  | invalidUser
  | invalidMode
  | invalidPort
  | invalidTimeout
  | timeoutOrdering
  | invalidDomain
  | invalidCidr
  | contradictoryEgress
  | emptyAllowlist
  | duplicate
  | destinationNotAllowed
  | forbiddenCharacter
deriving DecidableEq

/-! ## Characters -/

def isAsciiControl (c : Char) : Bool :=
  c.toNat < 32 || c.toNat == 127

def isAsciiGraphic (c : Char) : Bool :=
  33 ≤ c.toNat && c.toNat ≤ 126

/-- The characters with the Unicode property `White_Space`. -/
def isWhitespace (c : Char) : Bool :=
  let n := c.toNat
  (9 ≤ n && n ≤ 13) || n == 0x20 || n == 0x85 || n == 0xa0 || n == 0x1680
    || (0x2000 ≤ n && n ≤ 0x200a) || n == 0x2028 || n == 0x2029 || n == 0x202f || n == 0x205f
    || n == 0x3000

/-- The length of a piece of text in bytes. -/
def len (piece : List Char) : ℕ :=
  (String.ofList piece).utf8ByteSize

def startsWith (start piece : List Char) : Bool :=
  start.isPrefixOf piece

def contains (part piece : List Char) : Bool :=
  piece.tails.any part.isPrefixOf

def trim (piece : List Char) : List Char :=
  ((piece.dropWhile isWhitespace).reverse.dropWhile isWhitespace).reverse

/-! ## Domains -/

def MAX_DOMAIN_BYTES : ℕ := 253
def MAX_LABEL_BYTES : ℕ := 63

def labelValid (label : List Char) : Bool :=
  !label.isEmpty && len label ≤ MAX_LABEL_BYTES && label.head? != some '-'
    && label.getLast? != some '-' && label.all fun c => c.isLower || c.isDigit || c == '-'

variable (value : String)

/-- A lowercase DNS name, optionally behind `*.`, whose final label is not all digits. -/
def domain : Except InvalidReason Unit :=
  let name := (stripPrefix ['*', '.'] value.toList).getD value.toList
  if name.isEmpty || MAX_DOMAIN_BYTES < value.utf8ByteSize || name.getLast? == some '.' then
    .error .invalidDomain
  else
    let labels := name.splitOn '.'
    let numericFinalLabel := labels.getLast?.any fun label => label.all Char.isDigit
    if !labels.all labelValid || numericFinalLabel then .error .invalidDomain else .ok ()

/-- Whether a pattern of an allowlist covers a host; `*.` stands for at least one label. -/
def domainCovers (pattern host : List Char) : Bool :=
  match stripPrefix ['*', '.'] pattern with
  | some suffix => (stripSuffix suffix host).any fun start => start.getLast? == some '.' && 1 < len start
  | none => pattern == host

/-! ## Users, modes, ports and timeouts -/

def MAX_USER_BYTES : ℕ := 32

/-- Thirty days. -/
def MAX_TIMEOUT_SECONDS : U64 := 30 * 24 * 60 * 60

/-- A portable user name. -/
def user : Except InvalidReason Unit :=
  match value.toList with
  | [] => .error .invalidUser
  | first :: rest =>
    if MAX_USER_BYTES < value.utf8ByteSize || !(first.isLower || first == '_')
        || !(rest.all fun c => c.isLower || c.isDigit || c == '_' || c == '-') then
      .error .invalidUser
    else .ok ()

/-- An owner-readable file mode without group or other permission bits. -/
def secretMode (mode : U32) : Except InvalidReason Unit :=
  if 0o777 < mode || mode &&& 0o077 != 0 || mode &&& 0o400 == 0 then .error .invalidMode else .ok ()

def port (value : U16) : Except InvalidReason Unit :=
  if value = 0 then .error .invalidPort else .ok ()

def timeout (value : U64) : Except InvalidReason Unit :=
  if value = 0 ∨ MAX_TIMEOUT_SECONDS < value then .error .invalidTimeout else .ok ()

/-! ## Guest paths and environment names -/

inductive PathError where
  | empty
  | notAbsolute
  | notNormalized
  | forbiddenCharacter
  | tooLong
deriving DecidableEq

def MAX_PATH_BYTES : ℕ := 4096

/-- Absolute, without control characters and without empty, `.` or `..` segments. -/
def pathRule : Except PathError Unit :=
  if value.toList.isEmpty then .error .empty
  else if MAX_PATH_BYTES < value.utf8ByteSize then .error .tooLong
  else if value.toList.any isAsciiControl then .error .forbiddenCharacter
  else if value.toList.head? ≠ some '/' then .error .notAbsolute
  else if value = "/" then .ok ()
  else if (value.toList.tail.splitOn '/').all fun segment =>
      !segment.isEmpty && segment != ['.'] && segment != ['.', '.'] then .ok ()
  else .error .notNormalized

/-- An absolute normalized path of the guest. -/
abbrev GuestPath := Valid pathRule

namespace GuestPath

def parse : Except PathError GuestPath :=
  validate pathRule value

def asStr (path : GuestPath) : String := path.1

/-- Whether a path is another one or one of its ancestor directories. -/
def contains (self other : GuestPath) : Bool :=
  self.1 == "/" || self.1 == other.1
    || (stripPrefix self.1.toList other.1.toList).any fun rest => rest.head? == some '/'

/-- The final segment. -/
def fileName (path : GuestPath) : List Char :=
  ((path.1.toList.splitOn '/').getLast?).getD []

end GuestPath

/-- A guest path with the reason of the Template's field rules. -/
def absolutePath : Except InvalidReason GuestPath :=
  match GuestPath.parse value with
  | .ok path => .ok path
  | .error .empty => .error .empty
  | .error .notAbsolute => .error .notAbsolutePath
  | .error .notNormalized => .error .notNormalizedPath
  | .error .tooLong => .error .notNormalizedPath
  | .error .forbiddenCharacter => .error .forbiddenCharacter

inductive NameError where
  | empty
  | tooLong
  | forbiddenCharacter
deriving DecidableEq

def MAX_ENVIRONMENT_NAME_BYTES : ℕ := 256

/-- A letter or underscore, then letters, digits or underscores. -/
def nameRule : Except NameError Unit :=
  match value.toList with
  | [] => .error .empty
  | first :: rest =>
    if MAX_ENVIRONMENT_NAME_BYTES < value.utf8ByteSize then .error .tooLong
    else if !(first.isAlpha || first == '_') || !(rest.all fun c => c.isAlphanum || c == '_') then
      .error .forbiddenCharacter
    else .ok ()

abbrev EnvironmentName := Valid nameRule

def EnvironmentName.parse : Except NameError EnvironmentName :=
  validate nameRule value

/-! ## Secret material -/

def SECRET_SOURCE_SCHEME : List Char := "secret://".toList

def SECRET_NAME_MARKERS : List String :=
  ["SECRET", "TOKEN", "PASSWORD", "PASSWD", "PRIVATE_KEY", "API_KEY", "APIKEY", "ACCESS_KEY",
    "CREDENTIAL"]

def SECRET_VALUE_PREFIXES : List String :=
  ["sk-", "ghp_", "gho_", "ghu_", "ghs_", "github_pat_", "glpat-", "xoxb-", "xoxp-", "xoxa-", "xoxs-",
    "AIza"]

/-- Whether a name carries a credential marker as whole components between underscores. -/
def secretName (name : String) : Bool :=
  let components := (name.toList.map Char.toUpper).splitOn '_'
  SECRET_NAME_MARKERS.any fun marker =>
    components.tails.any (marker.toList.splitOn '_').isPrefixOf

/-- A value that cannot be a credential. -/
def trivialValue : Bool :=
  let trimmed := trim value.toList
  trimmed.isEmpty
    || ["true", "false", "0", "1"].any fun word => trimmed.map Char.toLower == word.toList

/-- `AKIA` or `ASIA` and exactly sixteen uppercase letters or digits. -/
def awsAccessKey (value : List Char) : Bool :=
  ((stripPrefix "AKIA".toList value).or (stripPrefix "ASIA".toList value)).any fun rest =>
    len rest == 16 && rest.all fun c => c.isUpper || c.isDigit

/-- Three base64url segments behind the usual start of a header. -/
def jsonWebToken (value : List Char) : Bool :=
  startsWith "eyJ".toList value &&
    let segments := value.splitOn '.'
    segments.length == 3 && segments.all fun segment =>
      !segment.isEmpty && segment.all fun c => c.isAlphanum || c == '-' || c == '_'

def secretValue (value : List Char) : Bool :=
  let trimmed := trim value
  SECRET_VALUE_PREFIXES.any (fun start => startsWith start.toList trimmed)
    || (startsWith "-----BEGIN ".toList trimmed && contains "PRIVATE KEY-----".toList trimmed)
    || awsAccessKey trimmed || jsonWebToken trimmed

/-- Whether a text, or a segment of it, has the shape of a credential. -/
def embeddedSecret (value : List Char) : Bool :=
  secretValue value
    || (value.splitOnP fun c => c == '/' || c == '=' || c == ':' || isWhitespace c).any secretValue

/-- The scheme and a nonempty graphic path. -/
def secretSourceShape (source : String) : Bool :=
  (stripPrefix SECRET_SOURCE_SCHEME source.toList).any fun path =>
    !path.isEmpty && path.all isAsciiGraphic

/-- A reference into a secret store, no segment of which is itself a credential. -/
def secretSource (source : String) : Bool :=
  secretSourceShape source
    && (stripPrefix SECRET_SOURCE_SCHEME source.toList).any fun path => !embeddedSecret path

/-! ## Coverage -/

theorem len_append (a b : List Char) : len (a ++ b) = len a + len b := by
  unfold len
  rw [String.ofList_append, String.utf8ByteSize_append]

/-- The hosts of a pattern: those behind at least one more label, or the pattern itself. -/
theorem domainCovers_iff {pattern host : List Char} :
    domainCovers pattern host = true ↔
      (∃ suffix start, pattern = '*' :: '.' :: suffix ∧ host = start ++ suffix
        ∧ start.getLast? = some '.' ∧ 1 < len start)
      ∨ (stripPrefix ['*', '.'] pattern = none ∧ pattern = host) := by
  unfold domainCovers
  cases hstrip : stripPrefix ['*', '.'] pattern with
  | none =>
    constructor
    · intro h
      exact .inr ⟨rfl, eq_of_beq h⟩
    · rintro (⟨suffix, start, rfl, -⟩ | ⟨-, rfl⟩)
      · have hsome : stripPrefix ['*', '.'] ('*' :: '.' :: suffix) = some suffix :=
          stripPrefix_eq_some.mpr rfl
        rw [hsome] at hstrip
        cases hstrip
      · exact beq_self_eq_true _
  | some suffix =>
    obtain rfl := stripPrefix_eq_some.mp hstrip
    simp only [Option.any_eq_true, stripSuffix_eq_some, Bool.and_eq_true, beq_iff_eq, decide_eq_true_eq]
    constructor
    · rintro ⟨start, hhost, hlast, hlen⟩
      exact .inl ⟨suffix, start, rfl, hhost, hlast, hlen⟩
    · rintro (⟨suffix', start, hpattern, hhost, hlast, hlen⟩ | ⟨hnone, -⟩)
      · obtain rfl : suffix = suffix' := by simpa using hpattern
        exact ⟨start, hhost, hlast, hlen⟩
      · cases hnone

/-! ## Lengths -/

variable {value}

theorem domain_length (h : domain value = .ok ()) : value.utf8ByteSize ≤ MAX_DOMAIN_BYTES := by
  unfold domain at h
  simp only at h
  split at h
  · cases h
  · next hshape =>
    simp only [Bool.or_eq_true, decide_eq_true_eq, not_or, not_lt] at hshape
    exact hshape.1.2

theorem pathRule_length (h : pathRule value = .ok ()) : value.utf8ByteSize ≤ MAX_PATH_BYTES := by
  unfold pathRule at h
  split_ifs at h <;> omega

theorem nameRule_length (h : nameRule value = .ok ()) : value.utf8ByteSize ≤ MAX_ENVIRONMENT_NAME_BYTES := by
  unfold nameRule at h
  split at h
  · cases h
  · split_ifs at h
    omega

end Soma.Template
