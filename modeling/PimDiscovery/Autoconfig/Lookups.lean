import PimDiscovery.Shared.Dns

/-! The DNS lookups autoconfig makes: the `mailconf` redirect, the aliases of a host and the mail
exchanges of a domain. -/

namespace PimDiscovery
open Interaction

inductive DiscoveryMailconfError where
  | dns (err : DnsLookupError)
  | noMailconfRecord
  deriving DecidableEq

abbrev MailconfResult : Type := Except DiscoveryMailconfError Url

section
variable [UrlCrate]

def mailconfUrl (strings : List Bytes) : Option Url :=
  match Text.stripBytes (Text.bytes "mailconf=") strings.flatten with
  | none => none
  | some value =>
    match Text.fromUtf8 value with
    | none => none
    | some url => (UrlCrate.parse (Text.trim url)).toOption

end

section
variable [DomainCrate]

/-- The MX answers, sorted by preference, then by exchange name. -/
def readMx (_ : String) (items : List MessageItem) : List Mx :=
  (items.filterMap fun item =>
    match item with
    | .answer { rdata := .mx mx, .. } => some mx
    | _ => none).mergeSort fun a b =>
      a.preference < b.preference ||
        (a.preference == b.preference && (DomainCrate.compareNames a.exchange b.exchange).isLE)

end

def normalizeName (name : String) : String := Text.toAsciiLowercase (Text.trimEndMatches name '.')

/-- Up to so many aliases followed from `current`, the last target in `target`. -/
def followFrom (aliases : List (String × String)) : Nat → String → Option String → Option String
  | 0, _, target => target
  | steps + 1, current, target =>
    match aliases.find? (·.1 == current) with
    | none => target
    | some (_, next) => followFrom aliases steps next (some next)

def follow (domain : String) (aliases : List (String × String)) : Option String :=
  followFrom aliases aliases.length (normalizeName domain) none

def readCname (domain : String) (items : List MessageItem) : Option String :=
  follow domain (items.filterMap fun item =>
    match item with
    | .answer { rname, rdata := .cname name } =>
      some (normalizeName rname.text, normalizeName name.text)
    | _ => none)

section
variable [PslCrate]

def mxBaseDomain (target : String) : Option String := PslCrate.domainStr (normalizeName target)

end

section
variable [DomainCrate] [IoHttpCrate]

abbrev DiscoveryMailconf := DiscoveryDnsTxt

namespace DiscoveryMailconf

def new (domain : String) (resolver : Url) : DiscoveryMailconf := DiscoveryDnsTxt.new domain resolver

variable [UrlCrate]

def finish : Except DnsLookupError (List (List Bytes)) → MailconfResult
  | .error err => .error (.dns err)
  | .ok records =>
    match records.findSome? mailconfUrl with
    | some url => .ok url
    | none => .error .noMailconfRecord

def resume (self : DiscoveryMailconf) (arg : Option Bytes) :
    Step DiscoveryYield DiscoveryMailconf MailconfResult :=
  (DiscoveryDnsTxt.resume self arg).mapResult finish

def program (domain : String) (resolver : Url) : Protocol MailconfResult :=
  DiscoveryDnsTxt.program domain resolver >>= fun records => .pure (finish records)

def toProc (self : DiscoveryMailconf) : ProtocolRun MailconfResult :=
  (DiscoveryDnsTxt.toProc self).andThen fun records => .pure (finish records)

theorem refines : Refines resume toProc := DiscoveryDnsTxt.refines.mapResult finish

theorem toProc_new (domain : String) (resolver : Url) (arg : Option Bytes) :
    (toProc (new domain resolver)).resume arg = drive exchanges (program domain resolver) := by
  rw [toProc, program, Proc.resume_andThen, drive_bind]
  rfl

end DiscoveryMailconf

abbrev DiscoveryDnsMx := DnsLookup

namespace DiscoveryDnsMx

def new (domain : String) (resolver : Url) : DiscoveryDnsMx := DnsLookup.new domain resolver

def resume : DiscoveryDnsMx → Option Bytes →
    Step DiscoveryYield DiscoveryDnsMx (Except DnsLookupError (List Mx)) :=
  DnsLookup.resume .mx readMx

def program (domain : String) (resolver : Url) : Protocol (Except DnsLookupError (List Mx)) :=
  DnsLookup.program .mx readMx domain resolver

def toProc (self : DiscoveryDnsMx) : ProtocolRun (Except DnsLookupError (List Mx)) :=
  DnsLookup.toProc .mx readMx self

theorem refines : Refines resume toProc := DnsLookup.refines .mx readMx

theorem toProc_new (domain : String) (resolver : Url) (arg : Option Bytes) :
    (toProc (new domain resolver)).resume arg = drive exchanges (program domain resolver) := rfl

end DiscoveryDnsMx

/-- `DiscoveryDnsCname`: an A question, whose answer holds the whole alias chain. -/
abbrev DiscoveryDnsCname := DnsLookup

namespace DiscoveryDnsCname

def new (domain : String) (resolver : Url) : DiscoveryDnsCname := DnsLookup.new domain resolver

def resume : DiscoveryDnsCname → Option Bytes →
    Step DiscoveryYield DiscoveryDnsCname (Except DnsLookupError (Option String)) :=
  DnsLookup.resume .a readCname

def program (domain : String) (resolver : Url) :
    Protocol (Except DnsLookupError (Option String)) :=
  DnsLookup.program .a readCname domain resolver

def toProc (self : DiscoveryDnsCname) : ProtocolRun (Except DnsLookupError (Option String)) :=
  DnsLookup.toProc .a readCname self

theorem refines : Refines resume toProc := DnsLookup.refines .a readCname

theorem toProc_new (domain : String) (resolver : Url) (arg : Option Bytes) :
    (toProc (new domain resolver)).resume arg = drive exchanges (program domain resolver) := rfl

end DiscoveryDnsCname
end
end PimDiscovery
