import CanonicalApi.Json

/-!
# `CanonicalApi.External`: the crates outside the repository

The repository calls crates whose source is not part of it. Each class below is the
interface of one of them, as far as the modelled functions use it. Results that need more
than the interface take the documented behaviour as a hypothesis.
-/

set_option autoImplicit false

namespace CanonicalApi

/-- An instant, in nanoseconds since the Unix epoch. `time::OffsetDateTime` compares
instants, whatever their offset. -/
abbrev Instant : Type := Int

/-- `OffsetDateTime::unix_timestamp`: whole seconds, rounded down. -/
def Instant.unixTimestamp (t : Instant) : Int :=
  t / 1000000000

/-- The crate `time` with the well-known format `Rfc3339`. -/
class TimeCrate where
  parse : String → Option Instant
  format : Instant → Option String

/-- What the locator check reads of a parsed `url::Url`. The parser is that of the crate `url`. -/
structure ParsedUrl where
  scheme : String
  username : String
  password : Option String
  host : Option String
  query : Option String
  fragment : Option String
deriving DecidableEq, Repr

/-- The crate `url`. -/
class UrlCrate where
  parse : String → Option ParsedUrl

/-- The crate `url` with `Url::to_string`: `serialize` gives the text of the URL that `parse`
reads from a text. -/
class UrlText extends UrlCrate where
  serialize : String → String

/-- The crates `sha2` and `hmac`: SHA-256 and HMAC-SHA256. Every digest has 32 bytes. -/
class CryptoCrates where
  sha256 : List UInt8 → List UInt8
  hmac : List UInt8 → List UInt8 → List UInt8
  sha256_length : ∀ m, (sha256 m).length = 32
  hmac_length : ∀ k m, (hmac k m).length = 32

/-- PostgreSQL, as far as the statements use its functions. `acceptsText` tells which texts
the server takes as a parameter, `hashText` is `hashtextextended($1, 0)`, `timestamptz` is the
cast of a text to a time in microseconds since the Unix epoch, and `toChar` writes such a time
in UTC with the pattern of `to_char` that all the statements use. -/
class Postgres where
  acceptsText : String → Bool
  hashText : String → Int
  timestamptz : String → Option Int
  toChar : Int → String

/-- The crate `canonical-lib`. `decodesQuoteRequest` tells whether `serde_json::from_value`
reads a value as a `QuoteRequest`. -/
class CanonicalLib where
  decodesQuoteRequest : JsonValue → Bool

end CanonicalApi
