import PimDiscovery.Crates

/-! A `url` crate for concrete runs: absolute URLs of a scheme, a host, a port and a path. -/

namespace PimDiscovery
namespace PlainUrl

def schemePort : String → Option Nat
  | "http" => some 80
  | "https" => some 443
  | _ => none

def parsePort (cs : List Char) : Option Nat :=
  if cs.isEmpty || !cs.all Char.isDigit then none
  else some (cs.foldl (fun n c => 10 * n + (c.toNat - '0'.toNat)) 0)

def parse (s : String) : Except String Url :=
  let scheme := s.toList.takeWhile (· != ':')
  let rest := s.toList.dropWhile (· != ':')
  if !"://".toList.isPrefixOf rest then .error "relative URL without a base"
  else
    let authority := (rest.drop 3).takeWhile (· != '/')
    let path := (rest.drop 3).dropWhile (· != '/')
    let scheme := String.ofList scheme
    let port := parsePort ((authority.dropWhile (· != ':')).drop 1)
    .ok
      { scheme
        username := ""
        password := none
        host := some (String.ofList (authority.takeWhile (· != ':')))
        port := if port = schemePort scheme then none else port.map UInt16.ofNat
        path := if path.isEmpty && (schemePort scheme).isSome then "/" else String.ofList path
        query := none
        fragment := none }

theorem parse_scheme {scheme : String} (h : ':' ∉ scheme.toList) (rest : String) :
    ∃ url, parse (scheme ++ ("://" ++ rest)) = .ok url ∧ url.scheme = scheme := by
  have hchars : (scheme ++ ("://" ++ rest)).toList =
      scheme.toList ++ ':' :: '/' :: '/' :: rest.toList := by
    simp
  have hplain : ∀ c ∈ scheme.toList, (c != ':') = true := by
    intro c hc
    rw [bne_iff_ne]
    rintro rfl
    exact h hc
  have htake : (scheme ++ ("://" ++ rest)).toList.takeWhile (· != ':') = scheme.toList := by
    rw [hchars, List.takeWhile_append_of_pos hplain]
    simp
  have hdrop : (scheme ++ ("://" ++ rest)).toList.dropWhile (· != ':') =
      ':' :: '/' :: '/' :: rest.toList := by
    rw [hchars, List.dropWhile_append_of_pos hplain]
    simp
  unfold parse
  simp only [htake, hdrop]
  exact ⟨_, rfl, String.ofList_toList⟩

def asStr (url : Url) : String :=
  url.scheme ++ "://" ++ url.host.getD "" ++
    (match url.port with
      | some port => ":" ++ toString port.toNat
      | none => "") ++ url.path

theorem asStr_eq (url : Url) : ∃ rest, asStr url = url.scheme ++ ("://" ++ rest) := by
  unfold asStr
  simp only [String.append_assoc]
  exact ⟨_, rfl⟩

def join (url : Url) (input : String) : Except String Url :=
  if input.toList.head? = some '/' then .ok { url with path := input } else parse input

end PlainUrl

/-- `UrlCrate` on the URLs the concrete runs meet. -/
@[reducible] def plainUrl : UrlCrate where
  parse := PlainUrl.parse
  join := PlainUrl.join
  asStr := PlainUrl.asStr
  encodePath _ path := path
  appendPair query key value := (query.map (· ++ "&")).getD "" ++ key ++ "=" ++ value

def exampleResolver : Url where
  scheme := "tcp"
  username := ""
  password := none
  host := some "1.1.1.1"
  port := some 53
  path := ""
  query := none
  fragment := none

def exampleOrigin : Url where
  scheme := "https"
  username := ""
  password := none
  host := some "example.org"
  port := none
  path := "/"
  query := none
  fragment := none

end PimDiscovery
