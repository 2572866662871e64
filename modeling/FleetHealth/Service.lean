import FleetHealth.Text.Percent
import FleetHealth.Wire.Dashboard
import FleetHealth.Wire.Trend
/-!
The read-only service: what is answered to a request, from the dashboard and trends published last.
-/
namespace FleetHealth

inductive Body where
  | empty
  | text (s : String)
  | document (t : Tree)

structure Response where
  status : Nat
  contentType : Option String
  /- The methods a resource has, where the request used another. -/
  allow : Option String
  /- Any page may read any answer. -/
  allowOrigin : String
  body : Body

namespace Response

def empty (status : Nat) : Response := ⟨status, none, none, "*", .empty⟩

def text (status : Nat) (s : String) : Response :=
  ⟨status, some "text/plain; charset=utf-8", none, "*", .text s⟩

def document (status : Nat) (t : Tree) : Response :=
  ⟨status, some "application/json", none, "*", .document t⟩

def failure (status : Nat) (message : String) : Response :=
  document status (.record [("error", .text message)])

end Response

structure Target where
  path : List Char
  query : List Char
  deriving DecidableEq, Repr

namespace Target

def isPathChar (c : Char) : Bool :=
  c = '!' || c = '"' || ('$' ≤ c && c ≤ ';') || c = '=' || ('@' ≤ c && c ≤ '_') ||
    ('a' ≤ c && c ≤ '~') || 0x7F ≤ c.toNat

def isQueryChar (c : Char) : Bool :=
  c = '!' || ('$' ≤ c && c ≤ ';') || c = '=' || ('?' ≤ c && c ≤ '~') || 0x7F ≤ c.toNat

/- A fragment is not part of the request. -/
def ofPath? (cs : List Char) : Option Target :=
  let cs := cs.takeWhile (· ≠ '#')
  let path := cs.takeWhile (· ≠ '?')
  let query := cs.drop (path.length + 1)
  if path.all isPathChar && query.all isQueryChar then some ⟨path, query⟩ else none

/-- Whatever stands before the path of an absolute target. -/
def afterAuthority (cs : List Char) : List Char :=
  cs.dropWhile (fun c => c ≠ '/' && c ≠ '?' && c ≠ '#')

def parse? (s : String) : Option Target :=
  match s.toList with
  | [] => none
  | '/' :: rest => ofPath? ('/' :: rest)
  | cs =>
    let scheme := cs.takeWhile Char.isAlpha
    match cs.drop scheme.length with
    | ':' :: '/' :: '/' :: rest =>
      match afterAuthority rest with
      | '/' :: path => ofPath? ('/' :: path)
      | rest' => ofPath? ('/' :: rest')
    | _ => some ⟨cs, []⟩

end Target

structure Request where
  method : String
  target : Target
  deriving DecidableEq, Repr

namespace Request

def isMethodChar (c : Char) : Bool := c.isAlphanum || "!#$%&'*+-.^_`|~".toList.contains c

/-- A request, if the method is a name and the target can be one. -/
def parse? (method target : String) : Option Request :=
  if method ≠ "" ∧ method.toList.all isMethodChar then
    (Target.parse? target).map (Request.mk method)
  else none

end Request

inductive Resource where
  | home
  | version
  | dashboard
  | stations
  /- The identifier is still encoded. -/
  | station (id : List Char)
  | bands
  | dailyTrends
  | dashboardStream
  deriving DecidableEq, Repr

namespace Resource

def ofPath? (path : List Char) : Option Resource :=
  match (Text.split '/' path).map String.ofList with
  | ["", ""] => some home
  | ["", "version"] => some version
  | ["", "api", "dashboard"] => some dashboard
  | ["", "api", "stations"] => some stations
  | ["", "api", "stations", id] => if id = "" then none else some (station id.toList)
  | ["", "api", "bands"] => some bands
  | ["", "api", "trends", "daily"] => some dailyTrends
  | ["", "ws", "dashboard"] => some dashboardStream
  | _ => none

end Resource

namespace Service

def versionTree : Tree := .record [("name", .text "stationhealth"), ("version", .text "0.3.0")]

def pointsTree (points : List TrendPoint) : Tree := .list (points.map TrendPoint.toTree)

/-- One metric's series, or all of them by metric name. -/
def dailyTrends (trends : Trends) (metric : Option String) : Response :=
  match metric with
  | some name =>
    match Metric.parse name with
    | .ok m => .document 200 (pointsTree (trends.series m))
    | .error e => .failure 400 e.message
  | none =>
    .document 200
      (.record ((seriesByMetric trends.points).map (fun e => (e.1.name, pointsTree e.2))))

def stationAnswer (dashboard : Dashboard) (id : List Char) : Response :=
  match Text.utf8? (Text.percentDecode id) with
  | none => .text 400 "Invalid URL: Invalid UTF-8 in `id`"
  | some id =>
    match dashboard.station? id with
    | some v => .document 200 v.toTree
    | none => .failure 404 ("unknown station: " ++ id)

def trendsAnswer (trends : Trends) (query : List Char) : Response :=
  match (Text.formPairs query).filter (fun p => p.1 = "metric") with
  | [] => dailyTrends trends none
  | [(_, name)] => dailyTrends trends (some name)
  | _ => .text 400 "Failed to deserialize query string: duplicate field `metric`"

/- A stream is opened by a get request that asks to change the protocol; these do not. -/
def streamAnswer (method : String) : Response :=
  if method = "GET" then .text 400 "Connection header did not include 'upgrade'"
  else .text 405 "Request method must be `GET`"

def read (dashboard : Dashboard) (trends : Trends) (method : String) (query : List Char) :
    Resource → Response
  | .home => .text 200 "stationhealth"
  | .version => .document 200 versionTree
  | .dashboard => .document 200 dashboard.toTree
  | .stations => .document 200 (.list (dashboard.stations.map StationView.toTree))
  | .station id => stationAnswer dashboard id
  | .bands => .document 200 (.list (dashboard.bands.map BandSummary.toTree))
  | .dailyTrends => trendsAnswer trends query
  | .dashboardStream => streamAnswer method

/-- The answer to a request. Every resource has the methods get and head, whose answers differ in
the body alone; options are answered alike everywhere. -/
def answer (dashboard : Dashboard) (trends : Trends) (r : Request) : Response :=
  if r.method = "OPTIONS" then .empty 200
  else
    match Resource.ofPath? r.target.path with
    | none => .empty 404
    | some resource =>
      if r.method = "GET" then read dashboard trends r.method r.target.query resource
      else if r.method = "HEAD" then
        { read dashboard trends r.method r.target.query resource with body := .empty }
      else { Response.empty 405 with allow := some "GET,HEAD" }

end Service
end FleetHealth
