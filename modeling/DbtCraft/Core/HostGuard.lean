/-
# Host guard

The check of `app/core/host_guard.py` on a host that a user has typed in: its addresses
are compared with those of this deployment's own endpoints, and classified.
-/

import DbtCraft.Exceptions
import DbtCraft.Python.Ipaddress
import DbtCraft.Python.UrlParse

namespace DbtCraft.Core.HostGuard

open DbtCraft.Python DbtCraft.Python.Url

/-- The characters of a host or of a URL. -/
abbrev Text := List Char

/-- The settings that the guard reads. -/
structure Settings where
  databaseUrl : Text
  lakeCatalogUrl : Text
  redisUrl : Text
  ingestAllowPrivateHosts : Bool

/-- A host and a port. -/
abbrev Endpoint := Text × Option ℕ

/-- How texts become addresses. -/
structure Names where
  /-- `ipaddress.ip_address(text)`. -/
  ipAddress : Text → Option Address
  /-- The addresses of `socket.getaddrinfo(host, None)`, or the text of its error. -/
  getaddrinfo : Text → Except String (List Text)

/-- `_METADATA_NETWORKS`. -/
def inMetadataNetworks : Address → Bool
  | .v4 value => Address.inNetwork value (Address.ipv4 169 254 0 0) 16
  | .v6 value _ => Address.inNetwork value (Address.ipv6 [0xfe80]) 10

/-- `text.strip().lower()`. -/
def normalized (host : Text) : Text :=
  (((host.dropWhile isSpace).reverse.dropWhile isSpace).reverse).map Char.toLower

/-- `_endpoint`. -/
def endpoint (tables : Tables) (url : Text) : Option Endpoint :=
  if url = [] then none
  else
    match urlparse tables url with
    | none => none
    | some parsed => parsed.hostname.map fun hostname =>
      (hostname.map Char.toLower, parsed.port.getD none)

/-- `own_infrastructure`. -/
def ownInfrastructure (tables : Tables) (settings : Settings) : List Endpoint :=
  [settings.databaseUrl, settings.lakeCatalogUrl, settings.redisUrl].filterMap (endpoint tables)

variable (names : Names)

/-- `_resolve`. -/
def resolve (host : Text) : Except Raised (List Address) :=
  match names.ipAddress host with
  | some address => .ok [address]
  | none =>
    match names.getaddrinfo host with
    | .error strerror =>
      .error (.hostNotAllowed
        ("Host '" ++ String.ofList host ++ "' could not be resolved: " ++ strerror))
    | .ok infos =>
      let addresses := infos.filterMap names.ipAddress
      if addresses = [] then
        .error (.hostNotAllowed
          ("Host '" ++ String.ofList host ++ "' resolved to no usable address"))
      else .ok addresses

/-- `_reject`. -/
def reject (host : Text) (reason : String) : Except Raised PUnit :=
  .error (.hostNotAllowed
    ("Target host '" ++ String.ofList host ++ "' is not allowed: " ++ reason))

/-- The ports of a target and of an endpoint do not differ. -/
def samePort (port infraPort : Option ℕ) : Bool :=
  !(port.isSome && infraPort.isSome && port ≠ infraPort)

/-- One round of the first loop. -/
def checkOwn (host : Text) (port : Option ℕ) (addresses : List Address) (infra : Endpoint) :
    Except Raised PUnit :=
  if samePort port infra.2 = false then .ok ()
  else if host = infra.1 then reject host "it is this deployment's own database or cache"
  else
    match resolve names infra.1 with
    | .error _ => .ok ()
    | .ok infraAddresses =>
      if addresses.any infraAddresses.contains then
        reject host "it is this deployment's own database or cache"
      else .ok ()

/-- One round of the second loop. -/
def checkAddress (allowPrivate : Bool) (host : Text) (address : Address) : Except Raised PUnit :=
  if inMetadataNetworks address then
    reject host "link-local and cloud metadata addresses are blocked"
  else if address.isLoopback then
    reject host ("loopback resolves to dbt-runner itself inside the container, not to your " ++
      "database host - use the service name or LAN address")
  else if address.isPrivate && !allowPrivate then
    reject host ("private network addresses are blocked - set " ++
      "INGEST_ALLOW_PRIVATE_HOSTS=true for on-premise warehouses")
  else .ok ()

/-- `assert_host_allowed`. -/
def assertHostAllowed (tables : Tables) (settings : Settings) (host : Text) (port : Option ℕ) :
    Except Raised PUnit :=
  let host := normalized host
  if host = [] then reject host "no host given"
  else do
    let addresses ← resolve names host
    (ownInfrastructure tables settings).forM (checkOwn names host port addresses)
    addresses.forM (checkAddress settings.ingestAllowPrivateHosts host)

end DbtCraft.Core.HostGuard
