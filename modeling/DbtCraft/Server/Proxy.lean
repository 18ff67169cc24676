/-
# The service proxy

`proxyRequest` of `src/server/proxy.ts` and the catch-all routes that call it: the URL that a
request is forwarded to, and the headers that go with it.
-/

import DbtCraft.Python.Dict
import DbtCraft.Python.Text
import DbtCraft.Web.Url

namespace DbtCraft.Server.Proxy

open DbtCraft.Python DbtCraft.Web

/-- Headers by their lower-case names. -/
abbrev Headers := Dict String String

/-- `HOP_BY_HOP_HEADERS`. -/
def hopByHopHeaders : List String :=
  ["connection", "content-length", "host", "keep-alive", "proxy-authenticate",
    "proxy-authorization", "te", "trailer", "transfer-encoding", "upgrade"]

/-- The characters of `\s`. -/
def isWhiteSpace (c : Char) : Bool :=
  let code := c.toNat
  (9 ≤ code && code ≤ 13) || code = 0x20 || code = 0xA0 || code = 0x1680 ||
    (0x2000 ≤ code && code ≤ 0x200A) || code = 0x2028 || code = 0x2029 || code = 0x202F ||
    code = 0x205F || code = 0x3000 || code = 0xFEFF

/-- `isMalformedBearerHeader`. -/
def isMalformedBearerHeader (value : Option String) : Bool :=
  match value with
  | none => false
  | some value =>
    let token := value.toList.drop 7
    !(startsWith value "Bearer " && token ≠ [] && token.all (!isWhiteSpace ·))

/-- `headers.set` takes the value. -/
def isHeaderValue (value : String) : Bool :=
  value.toList.all fun c => c.toNat < 256 && c.toNat ≠ 0 && c ≠ '\n' && c ≠ '\r'

structure Request where
  method : String
  /-- The query of the URL. -/
  search : Text
  headers : Headers
  body : List UInt8

/-- How `proxyRequest` goes on. -/
inductive Outcome
  | /-- It answers by itself. -/
    answered (status : ℕ) (error : String)
  | /-- An exception leaves the handler. -/
    raised
  | fetched (url : Url) (search : Text) (method : String) (headers : Headers)
      (body : Option (List UInt8))
  deriving DecidableEq

/-- `path.join('/')`. -/
def join (path : List Text) : Text := List.intercalate ['/'] path

/-- `${targetBaseUrl.replace(/\/$/, '')}/`. -/
def withSlash (targetBaseUrl : Text) : Text :=
  (if targetBaseUrl.getLast? = some '/' then targetBaseUrl.dropLast else targetBaseUrl) ++ ['/']

/-- `new URL(path.join('/'), …)`. -/
def targetUrl (hosts : HostParser) (path : List Text) (targetBaseUrl : Text) : Option Url :=
  (parse hosts (withSlash targetBaseUrl) none).bind fun base => parse hosts (join path) (some base)

/-- The headers that are forwarded. -/
def forwarded (headers extraHeaders : Headers) : Headers :=
  extraHeaders.foldl (fun headers extra => headers.set extra.1 extra.2)
    (hopByHopHeaders.foldl (fun headers name => headers.pop name) headers)

/-- The body that is forwarded. -/
def Request.forwardedBody (request : Request) : Option (List UInt8) :=
  if request.method = "GET" ∨ request.method = "HEAD" then none else some request.body

/-- `proxyRequest`, as far as its `fetch`. -/
def proxyRequest (hosts : HostParser) (request : Request) (path : List Text)
    (targetBaseUrl : Option Text) (serviceName : String) (extraHeaders : Headers) : Outcome :=
  match targetBaseUrl with
  | none | some [] => .answered 503 (serviceName ++ " is not configured")
  | some targetBaseUrl =>
    match targetUrl hosts path targetBaseUrl with
    | none => .raised
    | some url =>
      if isMalformedBearerHeader (request.headers.get "authorization") then
        .answered 401 "Malformed Authorization header"
      else if extraHeaders.any fun extra => !isHeaderValue extra.2 then .raised
      -- `fetch` takes no URL with credentials.
      else if url.credentials then .answered 503 (serviceName ++ " is not reachable")
      else .fetched url request.search request.method (forwarded request.headers extraHeaders)
        request.forwardedBody

/-! ## The routes -/

/-- `process.env.DBT_RUNNER_URL || 'http://localhost:8080'`. -/
def dbtRunnerUrl : Option Text → Text
  | none | some [] => "http://localhost:8080".toList
  | some url => url

/-- `process.env.AGENT_URL ?? 'http://dsh-agent:8090'`. -/
def agentUrl (url : Option Text) : Text := url.getD "http://dsh-agent:8090".toList

/-- `proxyDbtRunner`. -/
def proxyDbtRunner (hosts : HostParser) (environment : Option Text) (request : Request)
    (path : List Text) : Outcome :=
  proxyRequest hosts request path (some (dbtRunnerUrl environment)) "dbt-runner" []

/-- What `resolveRoutes` says of a user; the documents are encoded, none is empty. -/
structure Routes where
  credentials : Option String
  providers : Option String
  route : Option String
  model : Option String

/-- The headers that `proxyAgent` attaches. -/
def agentHeaders (routes : Option Routes) : Headers :=
  match routes with
  | none => []
  | some routes =>
    let attached : List (String × Option String) :=
      [("x-model-credentials", routes.credentials), ("x-model-providers", routes.providers),
        ("x-model-route", routes.route.filter (· ≠ "")),
        ("x-model-name", routes.model.filter (· ≠ ""))]
    attached.filterMap fun header => header.2.map fun value => (header.1, value)

/-- `proxyAgent`. -/
def proxyAgent (hosts : HostParser) (environment : Option Text) (routes : Option Routes)
    (request : Request) (path : List Text) : Outcome :=
  proxyRequest hosts request path (some (agentUrl environment)) "agent" (agentHeaders routes)

end DbtCraft.Server.Proxy
