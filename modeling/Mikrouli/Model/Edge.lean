import Mikrouli.Lib.Regex
import Mikrouli.Model.Data

/-! The way of a GET request to its handler: `nginx/nginx.conf`, the ConfigMap in
`k8s/base/web/configmap-nginx.yaml`, and the route table of the Nest application.

Of the two server blocks only what decides where a path goes is kept; the request is one
that the check of the User-Agent lets through. -/

namespace Mikrouli

/-! ### nginx -/

/-- Which paths a location is for: `=`, no modifier, or `~` and `~*`. -/
inductive Applies where
  | exactly (path : List Char)
  | below (path : List Char)
  | matching (r : Regex)

inductive Handling where
  | respond (status : Nat)
  /-- the static files of the web app, with its `index.html` as fallback -/
  | spa
  /-- a response of the server itself or a file of its own -/
  | own
  /-- the API, under the path of the request -/
  | api
  /-- the API, under `/api/$1` -/
  | apiSlug

structure Location where
  applies : Applies
  handling : Handling

namespace Location

def isExact (path : List Char) (l : Location) : Bool :=
  match l.applies with
  | .exactly p => decide (p = path)
  | _ => false

def captures? (path : List Char) (l : Location) : Option (List String) :=
  match l.applies with
  | .matching r => r.search path
  | _ => none

/-- How much of the path a location without modifier covers. -/
def covers? (path : List Char) (l : Location) : Option Nat :=
  match l.applies with
  | .below p => if p.isPrefixOf path then some p.length else none
  | _ => none

@[simp] theorem captures?_exactly (path p : List Char) (h : Handling) :
    captures? path ⟨.exactly p, h⟩ = none := rfl

@[simp] theorem captures?_below (path p : List Char) (h : Handling) :
    captures? path ⟨.below p, h⟩ = none := rfl

@[simp] theorem covers?_exactly (path p : List Char) (h : Handling) :
    covers? path ⟨.exactly p, h⟩ = none := rfl

@[simp] theorem covers?_matching (path : List Char) (r : Regex) (h : Handling) :
    covers? path ⟨.matching r, h⟩ = none := rfl

@[simp] theorem covers?_below (path p : List Char) (h : Handling) :
    covers? path ⟨.below p, h⟩ = if p.isPrefixOf path then some p.length else none := rfl

def longest (path : List Char) : List Location → Option Location
  | [] => none
  | l :: ls =>
    match l.covers? path, longest path ls with
    | none, other => other
    | some _, none => some l
    | some n, some other =>
      if (other.covers? path).any fun m => decide (n < m) then some other else some l

/-- The location for a path, with its captures: an exact one, else the first regular expression
that matches, else the longest of the others. -/
def select (locations : List Location) (path : List Char) : Option (Location × List String) :=
  match locations.find? (isExact path) with
  | some l => some (l, [])
  | none =>
    match locations.findSome? fun l => (l.captures? path).map fun found => (l, found) with
    | some chosen => some chosen
    | none => (longest path locations).map fun l => (l, [])

end Location

/-- `~ /\.` -/
def dotfiles : Location :=
  ⟨.matching (.seq (.lit '/') (.lit '.')), .respond 404⟩

/-- `~ "^/([…]{6})$"` -/
def shortLinks (accepts : Char → Bool) : Location :=
  ⟨.matching (.seq .start (.seq (.lit '/') (.seq (.group ((Regex.char accepts).times 6)) .stop))),
    .apiSlug⟩

def isWordChar (c : Char) : Bool := c.isAlphanum || decide (c = '_')

/-- `nginx/nginx.conf`; its `location /` hands over to the server of the web app. -/
def composeLocations : List Location :=
  [dotfiles,
   shortLinks isWordChar,
   ⟨.below "/api/".toList, .api⟩,
   ⟨.below "/".toList, .spa⟩,
   ⟨.exactly "/50x.html".toList, .respond 404⟩]

/-- `~* \.(js|css|…)$` -/
def assets : Location :=
  ⟨.matching (.seq (.lit '.') (.seq
      (.group ((Regex.wordCI "js".toList).anyOf
        (["css", "png", "jpg", "jpeg", "gif", "ico", "svg", "woff", "woff2", "ttf", "eot"].map
          fun extension => Regex.wordCI extension.toList)))
      .stop)), .own⟩

/-- `default.conf` of the ConfigMap. -/
def k8sLocations : List Location :=
  [dotfiles,
   ⟨.exactly "/config.js".toList, .own⟩,
   ⟨.below "/api/".toList, .api⟩,
   shortLinks Char.isAlphanum,
   assets,
   ⟨.exactly "/connect".toList, .own⟩,
   ⟨.below "/".toList, .spa⟩]

inductive Edge where
  | compose
  | k8s
  deriving DecidableEq, Repr

def Edge.locations : Edge → List Location
  | .compose => composeLocations
  | .k8s => k8sLocations

/-! ### The Nest application -/

inductive Controller where
  | swagger | health | auth | apiKeys | usage | links | stats | redirect | mcp
  deriving DecidableEq, Repr

inductive Method where
  | get | post | patch | delete
  deriving DecidableEq, Repr

inductive Segment where
  | fixed (name : String)
  | param (name : String)

structure Route where
  method : Method
  path : List Segment
  controller : Controller

/-- Express compares fixed segments in any letter case and lets a path end in a slash. -/
def matchSegments : List Segment → List (List Char) → Option (List (String × String))
  | [], [] => some []
  | [], [[]] => some []
  | .fixed name :: segments, part :: parts =>
    -- a request for `/API` is one for `/api`
    if part.map Char.toLower = name.toList.map Char.toLower then matchSegments segments parts
    else none
  | .param name :: segments, part :: parts =>
    -- a parameter matches at least one character
    if part = [] then none
    else (matchSegments segments parts).map fun params => (name, String.ofList part) :: params
  | _, _ => none

def route (method : Method) (controller : Controller) (path : List Segment) : Route :=
  ⟨method, .fixed "api" :: path, controller⟩

/-- The routes in the order they are registered: the modules depth first along their imports,
`ApiKeysModule` bringing in `UsageModule` before `LinksModule` comes up. Outside production
`main.ts` mounts the documentation before all of them. -/
def routes : List Route :=
  [route .get .swagger [.fixed "docs"],
   route .get .swagger [.fixed "docs-json"],
   route .get .swagger [.fixed "docs-yaml"],
   route .get .health [.fixed "health"],
   route .post .auth [.fixed "auth", .fixed "register"],
   route .post .auth [.fixed "auth", .fixed "login"],
   route .post .auth [.fixed "auth", .fixed "refresh"],
   route .post .auth [.fixed "auth", .fixed "logout"],
   route .get .auth [.fixed "auth", .fixed "me"],
   route .get .auth [.fixed "auth", .fixed "github"],
   route .get .auth [.fixed "auth", .fixed "github", .fixed "callback"],
   route .post .apiKeys [.fixed "api-keys"],
   route .get .apiKeys [.fixed "api-keys"],
   route .delete .apiKeys [.fixed "api-keys", .param "id"],
   route .get .usage [.fixed "usage"],
   route .post .links [.fixed "urls"],
   route .get .links [.fixed "urls"],
   route .delete .links [.fixed "urls", .param "slug"],
   route .patch .links [.fixed "urls", .param "slug"],
   route .get .stats [.fixed "stats", .param "slug"],
   route .get .redirect [.param "slug"],
   route .post .mcp [.fixed "mcp"],
   route .get .mcp [.fixed "mcp"],
   route .delete .mcp [.fixed "mcp"]]

/-! ### From the edge to a handler -/

/-- Where a GET request ends up. -/
inductive Arrival where
  | responded (status : Nat)
  | webApp
  | edge
  | handler (controller : Controller) (params : List (String × String))
  deriving DecidableEq, Repr

/-- The handler Nest finds for a GET request, a 404 where there is none. -/
def dispatch (path : List Char) : Arrival :=
  -- the path begins with a slash, what stands before it is empty
  let parts := (path.splitOn '/').drop 1
  match routes.findSome? fun r =>
      if r.method = .get then (matchSegments r.path parts).map fun params => (r.controller, params)
      else none with
  | some (controller, params) => .handler controller params
  | none => .responded 404

def arrive (edge : Edge) (path : List Char) : Arrival :=
  match Location.select edge.locations path with
  | none => .responded 404
  | some (l, captures) =>
    match l.handling with
    | .respond status => .responded status
    | .spa => .webApp
    | .own => .edge
    | .api => dispatch path
    | .apiSlug => dispatch ("/api/".toList ++ (captures.headD "").toList)

end Mikrouli
