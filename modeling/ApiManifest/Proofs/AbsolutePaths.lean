import ApiManifest.Proofs.AuthenticationRules
import ApiManifest.Proofs.ServerUrls

/-!
Where the paths in manifests begin. Templates that begin with a slash give absolute paths after a base
path that is empty or begins with a slash itself, and a base path does that whatever the URL of the
first server, with one exception: a relative URL whose path does not begin at the root is put before
the templates as it stands.
-/

namespace ApiManifest

open Gateway (RouteMatch)
open OpenApi

def IsAbsolute (path : String) : Prop :=
  path.toList.head? = some '/'

instance (path : String) : Decidable (IsAbsolute path) :=
  inferInstanceAs (Decidable (_ = _))

/-- Whatever the text begins with is a slash. -/
def BeginsAtRoot (text : String) : Prop :=
  ∀ c, text.toList.head? = some c → c = '/'

theorem isAbsolute_append_iff {start path : String} (absolute : IsAbsolute path) :
    IsAbsolute (start ++ path) ↔ BeginsAtRoot start := by
  unfold IsAbsolute at absolute
  unfold IsAbsolute BeginsAtRoot
  rw [String.toList_append, List.head?_append]
  cases start.toList.head? <;> simp [absolute]

/-! ### Base paths -/

namespace OpenApi

/-- The URL, with the defaults in it, is relative and its path begins with something else than a
slash. -/
def Server.IsRootless (server : Server) : Prop :=
  ¬ "://".toList <:+: server.render.toList ∧
    ∃ c, server.render.toList.head? = some c ∧ c ≠ '/' ∧ Uri.endsPath c = false

theorem beginsAtRoot_of_splitAbsolute {shown : String} {text : List Char} {url : ServerUrl}
    (split : splitAbsolute shown text = .ok url) (slash : '/' ∈ text) : BeginsAtRoot url.path := by
  obtain ⟨uri, parsed, rfl⟩ := splitAbsolute_eq_ok_iff.1 split
  intro c first
  rw [String.toList_ofList, Uri.rooted_of_parse parsed slash] at first
  exact (Option.some.inj first).symm

/-- The path of a server's URL begins at the root unless the URL is rootless. -/
theorem beginsAtRoot_iff {server : Server} {url : ServerUrl} (located : server.locate = .ok url) :
    BeginsAtRoot url.path ↔ ¬ server.IsRootless := by
  unfold Server.locate at located
  unfold Server.IsRootless
  by_cases network : "//".toList <+: server.render.toList
  · rw [splitUrl_network network] at located
    obtain ⟨rest, text⟩ := network
    have slash : '/' ∈ server.render.toList := text ▸ List.mem_cons_self
    refine iff_of_true
      (beginsAtRoot_of_splitAbsolute located (List.mem_append_right _ slash)) ?_
    rintro ⟨_, c, first, notSlash, _⟩
    rw [← text] at first
    exact notSlash (Option.some.inj first).symm
  · by_cases scheme : "://".toList <:+: server.render.toList
    · rw [splitUrl_absolute network scheme] at located
      have slash : '/' ∈ server.render.toList := scheme.subset (by decide)
      exact iff_of_true (beginsAtRoot_of_splitAbsolute located slash) (fun rootless =>
        rootless.1 scheme)
    · rw [splitUrl_relative network scheme] at located
      cases located
      unfold BeginsAtRoot
      rw [String.toList_ofList, and_iff_right scheme]
      cases server.render.toList with
      | nil => simp
      | cons c rest => cases ends : Uri.endsPath c <;> simp [ends]

theorem beginsAtRoot_dropSlash (text : String) :
    BeginsAtRoot (Document.dropSlash text) ↔ BeginsAtRoot text := by
  unfold Document.dropSlash
  split
  next rest reversed =>
    have whole : text.toList = rest.reverse ++ ['/'] := by
      rw [← List.reverse_reverse text.toList, reversed, List.reverse_cons]
    unfold BeginsAtRoot
    rw [whole, String.toList_ofList, List.head?_append]
    cases rest.reverse.head? <;> simp [eq_comm]
  next => rfl

namespace Document

def IsRootless (document : Document) : Prop :=
  ∃ server ∈ document.servers.head?, server.IsRootless

theorem beginsAtRoot_pathPrefix_iff {document : Document} {pathPrefix : String}
    (located : document.pathPrefix = .ok pathPrefix) :
    BeginsAtRoot pathPrefix ↔ ¬ document.IsRootless := by
  unfold Document.pathPrefix Document.basePath at located
  unfold Document.IsRootless
  cases servers : document.servers with
  | nil =>
    rw [servers] at located
    cases located
    refine iff_of_true ((beginsAtRoot_dropSlash "/").2 ?_) (by simp)
    intro c first
    cases first
    rfl
  | cons server rest =>
    rw [servers] at located
    simp only at located
    cases found : server.locate with
    | error error =>
      rw [found] at located
      cases located
    | ok url =>
      rw [found] at located
      cases located
      rw [beginsAtRoot_dropSlash, beginsAtRoot_iff found]
      simp

end Document

end OpenApi

/-! ### The paths in manifests -/

def Gateway.RouteMatch.pathValue? (matcher : RouteMatch) : Option String :=
  matcher.path.bind Gateway.PathMatch.value

def Gateway.RouteSpec.allMatches (spec : Gateway.RouteSpec) : List RouteMatch :=
  (spec.rules.getD []).flatMap (fun rule => rule.matchers.getD [])

namespace Policy

def selected (selectors : Option (List RouteSelector)) : List RouteMatch :=
  (selectors.getD []).flatMap (fun selector => selector.matchers.getD [])

def AuthPolicySpec.allMatches (spec : AuthPolicySpec) : List RouteMatch :=
  selected spec.routeSelectors ++
    spec.authentications.entries.flatMap (fun entry => selected entry.2.routeSelectors)

def RateLimitPolicySpec.allMatches (spec : RateLimitPolicySpec) : List RouteMatch :=
  spec.allLimits.entries.flatMap (fun entry => selected entry.2.routeSelectors)

end Policy

namespace Generate

open Policy
open Resolution (Resolved)

/-- The path stands in a manifest of the document, of one of the kinds in which paths come after the
base path. -/
inductive HasPath (document : Document) : String → Prop where
  | route {manifest : Gateway.HttpRoute} {matcher : RouteMatch} {path : String}
      (made : httpRoute document = .ok manifest) (member : matcher ∈ manifest.spec.allMatches)
      (shown : matcher.pathValue? = some path) : HasPath document path
  | authPolicy {manifest : AuthPolicy} {matcher : RouteMatch} {path : String}
      (made : authPolicy document = .ok manifest) (member : matcher ∈ manifest.spec.allMatches)
      (shown : matcher.pathValue? = some path) : HasPath document path
  | rateLimitPolicy {manifest : RateLimitPolicy} {matcher : RouteMatch} {path : String}
      (made : rateLimitPolicy document = .ok manifest)
      (member : matcher ∈ manifest.spec.allMatches)
      (shown : matcher.pathValue? = some path) : HasPath document path
  | descriptor {manifest : Descriptor.Api} {operation : Descriptor.Operation}
      (made : api document = .ok manifest) (member : operation ∈ manifest.spec.operations) :
      HasPath document operation.path

section Matches

variable {document : Document} {matcher : RouteMatch}

theorem route_matches {manifest : Gateway.HttpRoute} (made : httpRoute document = .ok manifest) :
    ∃ operations, Resolution.operations document = .ok operations ∧
      manifest.spec.allMatches = operations.map Resolved.matcher := by
  obtain ⟨_, operations, _, resolved, _, rules⟩ := httpRoute_ok made
  refine ⟨operations, resolved, ?_⟩
  unfold Gateway.RouteSpec.allMatches
  rw [rules, Nonempty.getD_list?, List.flatMap_map, List.map_eq_flatMap]
  rfl

theorem authPolicy_matches {manifest : AuthPolicy} (made : authPolicy document = .ok manifest)
    (member : matcher ∈ manifest.spec.allMatches) :
    ∃ operations, Resolution.operations document = .ok operations ∧
      matcher ∈ operations.map Resolved.matcher := by
  obtain ⟨_, operations, _, _, resolved, _, _, _, selectors, _⟩ := authPolicy_ok made
  refine ⟨operations, resolved, ?_⟩
  rcases List.mem_append.1 member with top | inner
  · obtain ⟨selector, stands, inside⟩ := List.mem_flatMap.1 top
    rw [selectors, Nonempty.getD_list?] at stands
    obtain ⟨operation, kept, rfl⟩ := List.mem_map.1 stands
    cases List.mem_singleton.1 inside
    exact List.mem_map_of_mem (List.mem_filter.1 kept).1
  · obtain ⟨entry, stands, inside⟩ := List.mem_flatMap.1 inner
    rw [(authentications_of_walk made resolved).1] at stands
    obtain ⟨operation, kept, own⟩ := List.mem_flatMap.1 (SortedDict.mem_of_mem_ofList stands)
    rw [(claims_of_mem own).2] at inside
    cases List.mem_singleton.1 inside
    exact List.mem_map_of_mem kept

theorem rateLimitPolicy_matches {manifest : RateLimitPolicy}
    (made : rateLimitPolicy document = .ok manifest)
    (member : matcher ∈ manifest.spec.allMatches) :
    ∃ operations, Resolution.operations document = .ok operations ∧
      matcher ∈ operations.map Resolved.matcher := by
  obtain ⟨_, operations, _, resolved, _, _, limits⟩ := rateLimitPolicy_ok made
  refine ⟨operations, resolved, ?_⟩
  obtain ⟨entry, stands, inside⟩ := List.mem_flatMap.1 member
  rw [allLimits_eq limits] at stands
  obtain ⟨operation, kept, own⟩ := List.mem_filterMap.1 (SortedDict.mem_of_mem_ofList stands)
  obtain ⟨rateLimit, _, rfl⟩ := Option.map_eq_some_iff.1 own
  cases List.mem_singleton.1 inside
  exact List.mem_map_of_mem kept

def IsPrefixed (document : Document) (path : String) : Prop :=
  ∃ pathPrefix, document.pathPrefix = .ok pathPrefix ∧
    ∃ template ∈ document.paths.keys, path = pathPrefix ++ template

theorem path_of_site {site : RequestMatch.Site} (stands : site ∈ document.sites) :
    site.path ∈ document.paths.keys := by
  obtain ⟨entry, declared, here⟩ := List.mem_flatMap.1 stands
  obtain ⟨_, _, rfl⟩ := List.mem_map.1 here
  exact List.mem_map_of_mem declared

theorem isPrefixed_of_matcher {operations : List Resolved} {path : String}
    (resolved : Resolution.operations document = .ok operations)
    (member : matcher ∈ operations.map Resolved.matcher)
    (shown : matcher.pathValue? = some path) : IsPrefixed document path := by
  obtain ⟨pathPrefix, located, asks⟩ := Resolution.matcher_of_mem resolved
  obtain ⟨operation, stands, rfl⟩ := List.mem_map.1 member
  have key : operation.key ∈ document.sites.map Resolution.siteKey :=
    (Resolution.keys_sublist_sites resolved).subset (List.mem_map_of_mem stands)
  obtain ⟨site, declared, same⟩ := List.mem_map.1 key
  have template : operation.path ∈ document.paths.keys := by
    have path : site.path = operation.path := congrArg Prod.fst same
    exact path ▸ path_of_site declared
  unfold RouteMatch.pathValue? at shown
  rw [(asks operation stands).1] at shown
  exact ⟨pathPrefix, located, operation.path, template, (Option.some.inj shown).symm⟩

theorem isPrefixed_of_hasPath {path : String} (there : HasPath document path) :
    IsPrefixed document path := by
  cases there with
  | route made member shown =>
    obtain ⟨operations, resolved, matchers⟩ := route_matches made
    exact isPrefixed_of_matcher resolved (matchers ▸ member) shown
  | authPolicy made member shown =>
    obtain ⟨operations, resolved, among⟩ := authPolicy_matches made member
    exact isPrefixed_of_matcher resolved among shown
  | rateLimitPolicy made member shown =>
    obtain ⟨operations, resolved, among⟩ := rateLimitPolicy_matches made member
    exact isPrefixed_of_matcher resolved among shown
  | descriptor made member =>
    obtain ⟨_, pathPrefix, _, located, _, operations, _⟩ := api_ok made
    rw [operations] at member
    obtain ⟨site, declared, rfl⟩ := List.mem_map.1 member
    exact ⟨pathPrefix, located, site.path, path_of_site declared, rfl⟩

end Matches

/-- Where all templates begin with a slash, so does every path in the manifests, unless the URL of
the first server is rootless, and then none does. -/
theorem path_absolute_iff {document : Document}
    (templates : ∀ template ∈ document.paths.keys, IsAbsolute template) {path : String}
    (there : HasPath document path) : IsAbsolute path ↔ ¬ document.IsRootless := by
  obtain ⟨pathPrefix, located, template, declared, rfl⟩ := isPrefixed_of_hasPath there
  rw [isAbsolute_append_iff (templates template declared),
    Document.beginsAtRoot_pathPrefix_iff located]

def regionalShop : Document :=
  { petstore with
    servers := [⟨"https://\x7bregion\x7d.example.com/\x7bbase\x7d",
      .ofList [("region", "eu")]⟩] }

def rootlessShop : Document :=
  { petstore with servers := [⟨"v1", .empty⟩] }

theorem regionalShop_path_absolute :
    (∀ template ∈ regionalShop.paths.keys, IsAbsolute template) ∧
    HasPath regionalShop "/pets" ∧ ¬ regionalShop.IsRootless ∧ IsAbsolute "/pets" := by
  have templates : ∀ template ∈ regionalShop.paths.keys, IsAbsolute template := by decide +kernel
  obtain ⟨route, made, shown⟩ := exists_ok_of_map
    (show (httpRoute regionalShop).toOption.map (fun route =>
        route.spec.allMatches.map RouteMatch.pathValue?) =
      some [some "/pets", some "/pets/\x7bid\x7d"] by decide +kernel)
  have there : HasPath regionalShop "/pets" := by
    have listed : some "/pets" ∈ route.spec.allMatches.map RouteMatch.pathValue? :=
      shown ▸ List.mem_cons_self
    obtain ⟨matcher, member, value⟩ := List.mem_map.1 listed
    exact .route made member value
  have located : ¬ regionalShop.IsRootless := by
    rintro ⟨server, first, noScheme, _⟩
    cases first
    refine noScheme ((hasSchemeEnd_iff _).1 ?_)
    decide +kernel
  exact ⟨templates, there, located, (path_absolute_iff templates there).2 located⟩

/-- On a rootless URL no path in any manifest is absolute. -/
theorem rootlessShop_paths_relative :
    (∀ template ∈ rootlessShop.paths.keys, IsAbsolute template) ∧
    (httpRoute rootlessShop).toOption.map (fun route =>
      route.spec.allMatches.map RouteMatch.pathValue?) =
      some [some "v1/pets", some "v1/pets/\x7bid\x7d"] ∧
    (authPolicy rootlessShop).toOption.map (fun policy =>
      policy.spec.allMatches.map RouteMatch.pathValue?) =
      some [some "v1/pets/\x7bid\x7d", some "v1/pets/\x7bid\x7d"] ∧
    (rateLimitPolicy rootlessShop).toOption.map (fun policy =>
      policy.spec.allMatches.map RouteMatch.pathValue?) = some [some "v1/pets"] ∧
    (api rootlessShop).toOption.map (fun descriptor =>
      descriptor.spec.operations.map Descriptor.Operation.path) =
      some ["v1/pets", "v1/pets/\x7bid\x7d"] ∧
    ¬ IsAbsolute "v1/pets" ∧ ¬ IsAbsolute "v1/pets/\x7bid\x7d" := by
  refine ⟨?_, ?_, ?_, ?_, ?_, ?_, ?_⟩ <;> decide +kernel

end Generate

end ApiManifest
