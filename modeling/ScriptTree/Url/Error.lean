/-!
# URL errors

The reasons for which a text is not a URL, each with its message.
-/
namespace ScriptTree

/-- Why a text is not a URL. -/
inductive UrlError where
  | emptyHost
  | badDomain
  | badPort
  | badIpv4
  | badIpv6
  | badHostCharacter
  | noBase
  | opaqueBase
  deriving DecidableEq, Repr

namespace UrlError

/-- The message of an error. -/
def message : UrlError → String
  | emptyHost => "empty host"
  | badDomain => "invalid international domain name"
  | badPort => "invalid port number"
  | badIpv4 => "invalid IPv4 address"
  | badIpv6 => "invalid IPv6 address"
  | badHostCharacter => "invalid domain character"
  | noBase => "relative URL without a base"
  | opaqueBase => "relative URL with a cannot-be-a-base base"

end UrlError

end ScriptTree
