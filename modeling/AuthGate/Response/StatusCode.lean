set_option autoImplicit false

/-! # HTTP status codes

The numbers that an HTTP status may have in a response, with their names. Zero stands for no
status. -/

namespace AuthGate.HttpStatus

/-- The codes and their names. -/
def codes : List (Int × String) := [
  (0, "Empty"), (100, "Continue"), (200, "Ok"), (201, "Created"), (202, "Accepted"),
  (203, "NonAuthoritativeInformation"), (204, "NoContent"), (205, "ResetContent"),
  (206, "PartialContent"), (207, "MultiStatus"), (208, "AlreadyReported"), (226, "ImUsed"),
  (300, "MultipleChoices"), (301, "MovedPermanently"), (302, "Found"), (303, "SeeOther"),
  (304, "NotModified"), (305, "UseProxy"), (307, "TemporaryRedirect"),
  (308, "PermanentRedirect"), (400, "BadRequest"), (401, "Unauthorized"),
  (402, "PaymentRequired"), (403, "Forbidden"), (404, "NotFound"), (405, "MethodNotAllowed"),
  (406, "NotAcceptable"), (407, "ProxyAuthenticationRequired"), (408, "RequestTimeout"),
  (409, "Conflict"), (410, "Gone"), (411, "LengthRequired"), (412, "PreconditionFailed"),
  (413, "PayloadTooLarge"), (414, "UriTooLong"), (415, "UnsupportedMediaType"),
  (416, "RangeNotSatisfiable"), (417, "ExpectationFailed"), (421, "MisdirectedRequest"),
  (422, "UnprocessableEntity"), (423, "Locked"), (424, "FailedDependency"),
  (426, "UpgradeRequired"), (428, "PreconditionRequired"), (429, "TooManyRequests"),
  (431, "RequestHeaderFieldsTooLarge"), (500, "InternalServerError"), (501, "NotImplemented"),
  (502, "BadGateway"), (503, "ServiceUnavailable"), (504, "GatewayTimeout"),
  (505, "HttpVersionNotSupported"), (506, "VariantAlsoNegotiates"), (507, "InsufficientStorage"),
  (508, "LoopDetected"), (510, "NotExtended"), (511, "NetworkAuthenticationRequired")]

/-- The name of a code. -/
def name? (code : Int) : Option String := (codes.find? (·.1 == code)).map (·.2)

/-- Whether a number is a code. -/
def isCode (code : Int) : Bool := codes.any (·.1 == code)

/-- The code of a request that is refused without further word. -/
def forbidden : Int := 403

end AuthGate.HttpStatus
