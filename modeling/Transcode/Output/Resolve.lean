/-
**The output that some settings describe.**

The first encoder that the settings name is the encoder of the output, wherever it stands among
them; later ones do not count.  The output of that encoder is then given every setting in turn.

Settings may also be requested from outside, where a request may be of a kind that the library
does not know.  Such a request fails when its turn comes, after the settings before it.

Main definitions:

* `Transcode.Token.firstEncoder?` — the encoder that some settings choose;
* `Transcode.Output.resolve` — the output that some settings describe;
* `Transcode.Request`, `Transcode.Output.resolveRequests` — the same for requests.
-/

import Transcode.Json.Printer
import Transcode.Output.Apply

set_option relaxedAutoImplicit false
set_option autoImplicit false

namespace Transcode

/-! ### Settings -/

/-- The first encoder that some settings name. -/
def Token.firstEncoder? (tokens : List Token) : Option VideoEncoder :=
  tokens.findSome? Setting.videoEncoder?

namespace Output

/-- The output that the settings start from: that of the first encoder they name. -/
def start (tokens : List Token) : Output :=
  ofEncoder ((Token.firstEncoder? tokens).getD defaultEncoder)

/-- The output that some settings describe, or what is wrong with the first refused one. -/
def resolve (tokens : List Token) : Except ParseError Output := (start tokens).applyAll tokens

end Output

/-! ### Requests -/

/-- A setting that is asked for from outside, or something of another kind. -/
inductive Request where
  | setting (token : Token)
  | other (kind : Text)
  deriving DecidableEq, Repr

/-- The sentence for a request of an unknown kind, which shows the request as a document. -/
def Request.unhandledMessage (kind : Text) : Text :=
  "Unhandled filter: ".toList ++ Json.print .compact (.ofFields [("type", .text kind)])

namespace Request

/-- The setting that is asked for, if it is one. -/
def token? : Request → Option Token
  | setting token => some token
  | other _ => none

/-- The first encoder that some requests name. -/
def firstEncoder? (requests : List Request) : Option VideoEncoder :=
  Token.firstEncoder? (requests.filterMap token?)

end Request

namespace Output

/-- The output after a request, or why the request fails. -/
def applyRequest (o : Output) : Request → Except Failure Output
  | .setting token => (o.apply token).mapError .refused
  | .other kind => .error (.plain (Request.unhandledMessage kind))

/-- The output that some requests describe, or why the first failing one fails. -/
def resolveRequests (requests : List Request) : Except Failure Output :=
  requests.foldlM applyRequest (start (requests.filterMap Request.token?))

end Output

end Transcode
