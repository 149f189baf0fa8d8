import SentinelSsh.Core.Config

/-!
# `core/intel/enrichment.py` and `core/intel/reputation.py`

Geolocation and network ownership of an address, and the threat feed. Python's `ipaddress` module and
the GeoLite2 readers are not part of the repository and enter as parameters.
-/

namespace SentinelSsh.Core

open Python

/-- The part of Python's `ipaddress` that is used. -/
structure IpLib where
  /-- A parsed address. -/
  Addr : Type
  /-- A parsed network. -/
  Net : Type
  /-- `ipaddress.ip_address`, `none` for a `ValueError`. -/
  ipAddress : String → Option Addr
  isPrivate : Addr → Bool
  isLoopback : Addr → Bool
  isReserved : Addr → Bool
  isLinkLocal : Addr → Bool
  /-- `addr in net` -/
  contains : Net → Addr → Bool

/-- A GeoLite2 reader: `none` for a lookup that raises. -/
abbrev Reader (α : Type) := String → Option α

/-- The response of the city database that is used. -/
structure CityResponse where
  isoCode : Option String
  name : Option String

/-- The response of the ASN database that is used. -/
structure AsnResponse where
  autonomousSystemNumber : Option Nat
  autonomousSystemOrganization : Option String

structure EnrichmentResult where
  /-- ISO alpha-2 code. -/
  country : Option String := none
  countryName : Option String := none
  asn : Option String := none
  isp : Option String := none
  isPrivate : Bool := false
  deriving DecidableEq, Repr

/-- `EnrichmentService`: a reader is `none` when its database is not available. -/
structure EnrichmentService where
  cityReader : Option (Reader CityResponse)
  asnReader : Option (Reader AsnResponse)

def EnrichmentService.fillGeo (svc : EnrichmentService) (ip : String) (result : EnrichmentResult) :
    EnrichmentResult :=
  match svc.cityReader.bind (· ip) with
  | none => result
  | some resp => { result with country := resp.isoCode, countryName := resp.name }

def EnrichmentService.fillAsn (svc : EnrichmentService) (ip : String) (result : EnrichmentResult) :
    EnrichmentResult :=
  match svc.asnReader.bind (· ip) with
  | none => result
  | some resp =>
    let asn := match resp.autonomousSystemNumber with
      | none => result.asn
      | some n => if n = 0 then result.asn else some ("AS" ++ toString n)
    { result with asn := asn, isp := resp.autonomousSystemOrganization }

def EnrichmentService.enrich (svc : EnrichmentService) (lib : IpLib) (ip : String) : EnrichmentResult :=
  match lib.ipAddress ip with
  | none => {}
  | some addr =>
    if lib.isPrivate addr || lib.isLoopback addr || lib.isReserved addr || lib.isLinkLocal addr then
      { isPrivate := true, country := some "LO", countryName := some "Local/Private",
        isp := some "Private Network" }
    else svc.fillAsn ip (svc.fillGeo ip {})

/-- `enrichment.country_name or enrichment.country`, the country stored with an attack. -/
def EnrichmentResult.storedCountry (r : EnrichmentResult) : Option String :=
  Python.or r.countryName r.country

structure ReputationResult where
  isMalicious : Bool := false
  /-- 0 (clean) to 100 (known bad). -/
  reputation : Int := 0
  source : Option String := none
  deriving DecidableEq, Repr

/-- `ReputationService.check` -/
def checkReputation (lib : IpLib) (networks : List lib.Net) (ip : String) : ReputationResult :=
  match lib.ipAddress ip with
  | none => {}
  | some addr =>
    if networks.any (lib.contains · addr) then
      { isMalicious := true, reputation := 100, source := some "local_feed" }
    else {}

end SentinelSsh.Core
