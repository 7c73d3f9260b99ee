import PimDiscovery.Rfc6186.Srv

/-! The RFC 6764 services, and the four SRV lookups of a domain. -/

namespace PimDiscovery
open Interaction

inductive DiscoveryDavService where
  | caldav | carddav
  deriving DecidableEq, Repr

namespace DiscoveryDavService

def serviceName : DiscoveryDavService → String
  | caldav => "caldav"
  | carddav => "carddav"

def srvQname (self : DiscoveryDavService) (secure : Bool) (domain : String) : String :=
  let service := match self, secure with
    | caldav, true => "_caldavs"
    | caldav, false => "_caldav"
    | carddav, true => "_carddavs"
    | carddav, false => "_carddav"
  service ++ "._tcp." ++ domain

end DiscoveryDavService

structure DiscoveryWebdavSrvReport where
  caldav : Option DiscoverySrvService
  caldavs : Option DiscoverySrvService
  carddav : Option DiscoverySrvService
  carddavs : Option DiscoverySrvService
  deriving DecidableEq, Repr

variable [DomainCrate] [IoHttpCrate]

abbrev DiscoveryWebdavSrv := SrvSeries DiscoveryWebdavSrvReport

abbrev WebdavSrvResult : Type := Except (String × DnsLookupError) DiscoveryWebdavSrvReport

namespace DiscoveryWebdavSrv

def caldav : SrvLookup DiscoveryWebdavSrvReport :=
  ⟨"_caldav", fun report srv => { report with caldav := srv }⟩
def caldavs : SrvLookup DiscoveryWebdavSrvReport :=
  ⟨"_caldavs", fun report srv => { report with caldavs := srv }⟩
def carddav : SrvLookup DiscoveryWebdavSrvReport :=
  ⟨"_carddav", fun report srv => { report with carddav := srv }⟩
def carddavs : SrvLookup DiscoveryWebdavSrvReport :=
  ⟨"_carddavs", fun report srv => { report with carddavs := srv }⟩

def emptyReport : DiscoveryWebdavSrvReport :=
  { caldav := none, caldavs := none, carddav := none, carddavs := none }

def new (domain : String) (resolver : Url) : DiscoveryWebdavSrv :=
  SrvSeries.new caldav [caldavs, carddav, carddavs] (Text.trimMatches domain '.') resolver emptyReport

def resume : DiscoveryWebdavSrv → Option Bytes →
    Step DiscoveryYield DiscoveryWebdavSrv WebdavSrvResult :=
  SrvSeries.resume

def program (domain : String) (resolver : Url) : Protocol WebdavSrvResult :=
  SrvSeries.program (Text.trimMatches domain '.') resolver [caldav, caldavs, carddav, carddavs]
    emptyReport

def toProc (self : DiscoveryWebdavSrv) : ProtocolRun WebdavSrvResult := SrvSeries.toProc self

theorem refines : Refines resume toProc := SrvSeries.refines

theorem toProc_new (domain : String) (resolver : Url) (arg : Option Bytes) :
    (toProc (new domain resolver)).resume arg = drive exchanges (program domain resolver) :=
  SrvSeries.toProc_new ..

end DiscoveryWebdavSrv
end PimDiscovery
