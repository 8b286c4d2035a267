import ModSecurityIIS.Windows

/-!
# Data model

The requests and responses IIS hands to the module, the engine values it
exchanges with libModSecurity, and the module's own per-request and per-path
contexts.
-/

set_option autoImplicit false

namespace ModSecurityIIS

/-! ## HTTP server API -/

/-- The indices into `KnownHeaders` the module reads. -/
inductive HttpHeaderId where
  | cacheControl | connection | date | keepAlive | pragma | trailer | transferEncoding
  | upgrade | via | warning | allow | contentLength | contentType | contentEncoding
  | contentLanguage | contentLocation | contentMd5 | contentRange | expires | lastModified
  | accept | acceptCharset | acceptEncoding | acceptLanguage | authorization | cookie
  | expect | fromHeader | host | ifMatch | ifModifiedSince | ifNoneMatch | ifRange
  | ifUnmodifiedSince | maxForwards | proxyAuthorization | referer | range | te | translate
  | userAgent
  | acceptRanges | age | etag | location | proxyAuthenticate | retryAfter | server
  | setCookie | vary | wwwAuthenticate
  deriving DecidableEq, Repr

/-- Raw header values; an absent pointer is `none`. -/
structure HttpHeaders where
  known : HttpHeaderId → Option Bytes
  unknown : List (Option Bytes × Option Bytes)

def HttpHeaders.empty : HttpHeaders := { known := fun _ => none, unknown := [] }

inductive HttpVerb where
  | options | get | head | post | put | delete | trace | track | connect | move | copy
  | propfind | proppatch | mkcol | lock | unlock | search
  | unknown
  | unparsed
  deriving DecidableEq, Repr

structure HttpVersion where
  majorVersion : Nat
  minorVersion : Nat
  deriving DecidableEq, Repr

/-- A buffer of UTF-16 units with the byte length the server reports for it. -/
structure WideText where
  units : Option (List UInt16)
  byteLength : Nat
  deriving DecidableEq, Repr

/-- `HTTP_REQUEST`. `moreEntityBodyExists` is the bit
`HTTP_REQUEST_FLAG_MORE_ENTITY_BODY_EXISTS` of `Flags`. -/
structure HttpRequest where
  verb : HttpVerb
  unknownVerb : Option Bytes
  rawUrl : Option Bytes
  absPath : WideText
  queryString : WideText
  version : HttpVersion
  headers : HttpHeaders
  moreEntityBodyExists : Bool

/-- A socket address; ports are in network byte order. -/
inductive SockAddr where
  | inet (address : List UInt8) (port : UInt16)
  | inet6 (address : List UInt8) (port : UInt16)
  | other (family : Nat)
  deriving DecidableEq, Repr

/-- A memory chunk; `BufferLength` is a `ULONG`. -/
structure MemoryBuffer where
  bytes : Bytes
  bounded : bytes.length < 2 ^ 32
  deriving DecidableEq

/-- `HTTP_DATA_CHUNK`. A file chunk carries the content of the file behind its
handle; the remaining chunk types, of which the client gets `length` bytes, are
skipped by the module. -/
inductive DataChunk where
  | fromMemory (buffer : MemoryBuffer)
  | fromFileHandle (file : Bytes) (startingOffset length : UInt64)
  | other (length : Nat)
  deriving DecidableEq

/-- The length of a file range that extends to the end of the file. -/
def httpByteRangeToEof : Nat := 2 ^ 64 - 1

/-- The response object as `IHttpResponse` shows it. -/
structure HttpResponse where
  statusCode : Nat
  reason : String
  headers : HttpHeaders
  entityChunks : List DataChunk

inductive ResponseOp where
  | clear
  | setStatus (statusCode : Nat) (reason : String)
  | redirect (url : Bytes)
  | setHeader (header : HttpHeaderId) (value : Bytes)
  deriving DecidableEq, Repr

/-- `Clear` wipes headers and entity, `Redirect` answers 302 with the location. -/
def HttpResponse.apply (response : HttpResponse) : ResponseOp → HttpResponse
  | .clear => { response with headers := .empty, entityChunks := [] }
  | .setStatus statusCode reason => { response with statusCode, reason }
  | .redirect url =>
      { response with
        statusCode := 302
        reason := "Redirect"
        headers := { response.headers with
          known := Function.update response.headers.known .location (some url) } }
  | .setHeader header value =>
      { response with
        headers := { response.headers with
          known := Function.update response.headers.known header (some value) } }

/-! ## libModSecurity -/

/-- `ModSecurityIntervention`; `status` and `disruptive` are C `int`s. -/
structure Intervention where
  status : Int
  disruptive : Int
  url : Option Bytes
  deriving DecidableEq, Repr

inductive RuleEngineState where
  | disabledRuleEngine
  | enabledRuleEngine
  | detectionOnlyRuleEngine
  | propertyNotSetRuleEngine
  deriving DecidableEq, Repr

inductive ConfigBoolean where
  | trueConfigBoolean
  | falseConfigBoolean
  | propertyNotSetConfigBoolean
  deriving DecidableEq, Repr

/-- The part of a `RulesSet` the module reads itself. -/
structure RulesSet where
  secResponseBodyAccess : ConfigBoolean
  deriving DecidableEq, Repr

/-- The identity of a `Transaction` object. -/
abbrev TransactionId := Nat

/-- The calls the module makes on a transaction, with their arguments. -/
inductive EngineCall where
  | processConnection (client : Bytes) (clientPort : Nat) (server : Bytes) (serverPort : Nat)
  | processURI (uri method version : Bytes)
  | addRequestHeader (name value : Bytes)
  | processRequestHeaders
  | appendRequestBody (body : Bytes)
  | processRequestBody
  | addResponseHeader (name value : Bytes)
  | processResponseHeaders (code : Nat) (protocol : Bytes)
  | appendResponseBody (body : Bytes)
  | processResponseBody
  | intervention (reported : Option Intervention)
  | getRuleEngineState
  | updateStatusCode (status : Int)
  | processLogging
  deriving DecidableEq, Repr

/-! ## Rules cache -/

structure FileTime where
  dwLowDateTime : BitVec 32
  dwHighDateTime : BitVec 32
  deriving DecidableEq, Repr

/-- A cache entry over any kind of rules object. -/
structure CachedRules (Rules : Type) where
  rules : Rules
  mtime : FileTime
  deriving DecidableEq, Repr

/-! ## Contexts of the module -/

/-- `MODSECURITY_STORED_CONTEXT`: the configuration of one metadata path. -/
structure ModsecurityStoredContext where
  isEnabled : Bool
  path : Option (List UInt16)
  responseBodyBlock : Bool
  deriving DecidableEq, Repr

inductive BodyReadState where
  | idle
  | readPending
  | done
  deriving DecidableEq, Repr

def kBodyReadChunkSize : Nat := 65536

/-- `REQUEST_STORED_CONTEXT`, without the back pointer to the IIS context, which
nothing reads. -/
structure RequestStoredContext where
  tx : Option TransactionId
  rules : Option RulesSet
  responseHeadersFed : Bool
  responseBodyBlock : Bool
  responseBodyEvaluated : Bool
  protocol : Bytes
  body : Bytes
  readBuf : Bytes
  hasBody : Bool
  declaredBodyLength : Nat
  bodyReadState : BodyReadState
  deriving DecidableEq, Repr

/-- The constructor of `REQUEST_STORED_CONTEXT`. -/
def RequestStoredContext.new : RequestStoredContext where
  tx := none
  rules := none
  responseHeadersFed := false
  responseBodyBlock := false
  responseBodyEvaluated := false
  protocol := []
  body := []
  readBuf := []
  hasBody := false
  declaredBodyLength := 0
  bodyReadState := .idle

end ModSecurityIIS
