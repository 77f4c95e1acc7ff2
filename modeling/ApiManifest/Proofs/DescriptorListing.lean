import ApiManifest.Proofs.FirstFailure
import ApiManifest.Proofs.Generation
import ApiManifest.Proofs.ServerUrls

/-!
What an API descriptor lists, beside what an HTTPRoute does. A descriptor has one operation for each
that the document declares, disabled ones too, under its path after the base path; the HTTPRoute has
a rule for exactly those that are not disabled, in the same order. The hosts are those of the servers
that have an authority, and every declared scheme is listed with the one kind of authentication that
expresses it.
-/

namespace ApiManifest

/-- What a descriptor tells operations apart by. -/
def Descriptor.Operation.key (operation : Descriptor.Operation) : String × String :=
  (operation.path, operation.method)

def Gateway.RouteRule.keys (rule : Gateway.RouteRule) : List (String × String) :=
  (rule.matchers.getD []).filterMap (fun condition =>
    match condition.path.bind Gateway.PathMatch.value, condition.method with
    | some path, some method => some (path, method.name)
    | _, _ => none)

def OpenApi.Server.authority? (server : OpenApi.Server) : Option (List Char) :=
  let text := server.render.toList
  if "//".toList.isPrefixOf text then
    (Uri.parse ("http:".toList ++ text)).toOption.bind Uri.authority
  else if OpenApi.hasSchemeEnd text then (Uri.parse text).toOption.bind Uri.authority
  else none

namespace Generate

open Gateway (Method RouteRule)
open OpenApi (Document Server ServerUrl)
open Resolution (Resolved bind_eq_ok mapM_eq_ok_iff)

/-- A path and a verb as they are written after the base path. -/
def entry (pathPrefix : String) (key : String × Method) : String × String :=
  (pathPrefix ++ key.1, key.2.name)

theorem entry_injective (pathPrefix : String) : Function.Injective (entry pathPrefix) := by
  intro left right same
  have paths : left.1 = right.1 :=
    (String.append_right_inj pathPrefix).1 (congrArg Prod.fst same)
  have methods : left.2 = right.2 := Resolution.methodName_injective (congrArg Prod.snd same)
  exact Prod.ext paths methods

/-! ### Hosts -/

theorem host_of_splitAbsolute {shown : String} {text : List Char} {url : ServerUrl}
    (split : OpenApi.splitAbsolute shown text = .ok url) :
    url.host = ((Uri.parse text).toOption.bind Uri.authority).map OpenApi.hostText := by
  obtain ⟨uri, parsed, rfl⟩ := OpenApi.splitAbsolute_eq_ok_iff.1 split
  rw [parsed]
  rfl

theorem host_of_locate {server : Server} {url : ServerUrl} (located : server.locate = .ok url) :
    url.host = server.authority?.map OpenApi.hostText := by
  unfold Server.locate OpenApi.splitUrl at located
  unfold Server.authority?
  simp only at located ⊢
  split at located
  next network =>
    rw [if_pos network]
    exact host_of_splitAbsolute located
  next notNetwork =>
    rw [if_neg notNetwork]
    split at located
    next absolute =>
      rw [if_pos absolute]
      exact host_of_splitAbsolute located
    next relative =>
      rw [if_neg relative]
      cases located
      rfl

theorem hosts_of_urls {servers : List Server} {urls : List ServerUrl}
    (located : List.Forall₂ (fun server url => server.locate = .ok url) servers urls) :
    urls.filterMap ServerUrl.host =
      servers.filterMap (fun server => server.authority?.map OpenApi.hostText) := by
  induction located with
  | nil => rfl
  | cons here _ ih => rw [List.filterMap_cons, List.filterMap_cons, host_of_locate here, ih]

theorem hosts_eq {document : Document} {hosts : List String}
    (found : document.hosts = .ok hosts) :
    hosts = document.servers.filterMap (fun server => server.authority?.map OpenApi.hostText) := by
  unfold Document.hosts at found
  obtain ⟨urls, located, found⟩ := bind_eq_ok found
  cases found
  exact hosts_of_urls (mapM_eq_ok_iff.1 located)

/-! ### Schemes -/

theorem describeScheme_ok {name : String} {scheme : OpenApi.SecurityScheme}
    {described : Descriptor.SecurityScheme}
    (made : describeScheme name scheme = .ok described) :
    described.name = name ∧
      ((∃ location key, Security.classify name scheme = .ok (.apiKey location key) ∧
        described.apiKeyAuth = some ⟨location.name, key⟩ ∧ described.openIdAuth = none) ∨
      ∃ url, Security.classify name scheme = .ok (.openIdConnect url) ∧
        described.apiKeyAuth = none ∧ described.openIdAuth = some ⟨url⟩) := by
  unfold describeScheme at made
  obtain ⟨meaning, classified, made⟩ := bind_eq_ok made
  cases meaning with
  | apiKey location key =>
    cases made
    exact ⟨rfl, Or.inl ⟨location, key, classified, rfl, rfl⟩⟩
  | openIdConnect url =>
    cases made
    exact ⟨rfl, Or.inr ⟨url, classified, rfl, rfl⟩⟩
  | unsupported kind => cases made

theorem schemes_described {entries : List (String × OpenApi.SecurityScheme)}
    {described : List Descriptor.SecurityScheme}
    (each : List.Forall₂ (fun entry scheme => describeScheme entry.1 entry.2 = .ok scheme)
      entries described) :
    described.map Descriptor.SecurityScheme.name = entries.map Prod.fst ∧
      ∀ scheme ∈ described, scheme.apiKeyAuth.isSome = !scheme.openIdAuth.isSome := by
  induction each with
  | nil => exact ⟨rfl, fun scheme member => absurd member List.not_mem_nil⟩
  | @cons entry scheme _ _ here _ ih =>
    obtain ⟨names, kinds⟩ := ih
    obtain ⟨name, kind⟩ := describeScheme_ok here
    refine ⟨?_, fun other member => ?_⟩
    · rw [List.map_cons, List.map_cons, name, names]
    · rcases List.mem_cons.1 member with rfl | later
      · rcases kind with ⟨_, _, _, key, issuer⟩ | ⟨_, _, key, issuer⟩ <;> rw [key, issuer] <;> rfl
      · exact kinds other later

/-! ### Operations -/

theorem operations_keys (document : Document) (pathPrefix : String) :
    (document.sites.map (describeOperation pathPrefix)).map Descriptor.Operation.key =
      (Resolution.declared document).map (entry pathPrefix) := by
  rw [← Resolution.sites_keys, List.map_map, List.map_map]
  rfl

/-- The rules of a route are those of the enabled operations, each with its path after the base
path and its verb. -/
theorem rules_keys {document : Document} {pathPrefix : String} {route : Gateway.HttpRoute}
    (located : document.pathPrefix = .ok pathPrefix) (made : httpRoute document = .ok route) :
    (route.spec.rules.getD []).map RouteRule.keys =
      (Resolution.enabledSites document).map (fun site =>
        [entry pathPrefix (Resolution.siteKey site)]) := by
  obtain ⟨_, operations, _, resolved, _, rules⟩ := httpRoute_ok made
  rw [rules, Nonempty.getD_list?, Resolution.operations_eq_records resolved, List.map_map,
    List.map_map, ← Resolution.prefixOf_eq located]
  rfl

/-- What a descriptor says of a document. -/
structure Describes (descriptor : Descriptor.Api) (document : Document) (pathPrefix : String) :
    Prop where
  operations : descriptor.spec.operations.map Descriptor.Operation.key =
    (Resolution.declared document).map (entry pathPrefix)
  distinct : (descriptor.spec.operations.map Descriptor.Operation.key).Nodup
  hosts : descriptor.spec.hosts =
    document.servers.filterMap (fun server => server.authority?.map OpenApi.hostText)
  schemes : descriptor.spec.securitySchemes.map Descriptor.SecurityScheme.name =
    document.components.securitySchemes.keys
  kinds : ∀ scheme ∈ descriptor.spec.securitySchemes,
    scheme.apiKeyAuth.isSome = !scheme.openIdAuth.isSome

/-- A descriptor lists what the document declares, and the rules of the HTTPRoute are those of its
entries whose operation is enabled. -/
theorem descriptor_lists_declared {document : Document} {descriptor : Descriptor.Api}
    (made : api document = .ok descriptor) :
    (∃ pathPrefix, document.pathPrefix = .ok pathPrefix ∧
      Describes descriptor document pathPrefix) ∧
    ∀ route, httpRoute document = .ok route →
      (route.spec.rules.getD []).map RouteRule.keys =
        ((document.sites.zip descriptor.spec.operations).filter (fun (site, _) =>
          !(Resolution.effectiveAt site).disabled)).map (fun (_, operation) => [operation.key]) := by
  obtain ⟨name, pathPrefix, _, located, hosts, operations, schemes⟩ := api_ok made
  obtain ⟨names, kinds⟩ := schemes_described schemes
  have listed : descriptor.spec.operations.map Descriptor.Operation.key =
      (Resolution.declared document).map (entry pathPrefix) := by
    rw [operations, operations_keys]
  refine ⟨⟨pathPrefix, located, ?_⟩, fun route routed => ?_⟩
  · refine
      { operations := listed
        distinct := ?_
        hosts := hosts_eq hosts
        schemes := names
        kinds := kinds }
    rw [listed, ← Resolution.sites_keys]
    exact (Resolution.sites_keys_nodup document).map (entry_injective pathPrefix)
  · rw [rules_keys located routed, operations, ← List.map_prod_left_eq_zip, List.filter_map,
      List.map_map]
    rfl

def versionedShop : Document where
  version := "3.0.2"
  info := ⟨"Versioned Shop", "1.0.0"⟩
  servers := [⟨"https://api.example.com:8443/v1/", .empty⟩, ⟨"/v1", .empty⟩]
  paths := .ofList [
    ("/pets", { readItem ⟨some "listPets", [], none, none⟩ with
      post := some ⟨some "addPet", [], none, some (.object [("disable", .bool true)])⟩ }),
    ("/pets/\x7bid\x7d", readItem ⟨some "showPetById", [], none, none⟩)]
  components := ⟨.empty, .ofList [
    ("oidc", ⟨"openIdConnect", none, none, some "https://id.example.com"⟩)]⟩
  security := none
  extension := some (.object [("route", .object [("name", .string "shop")])])

theorem versionedShop_listed : ∃ descriptor route,
    api versionedShop = .ok descriptor ∧ httpRoute versionedShop = .ok route ∧
    Describes descriptor versionedShop "/v1" ∧ descriptor.spec.hosts = ["api.example.com:8443"] ∧
    descriptor.spec.operations.map Descriptor.Operation.key =
      [("/v1/pets", "GET"), ("/v1/pets", "POST"), ("/v1/pets/\x7bid\x7d", "GET")] ∧
    (route.spec.rules.getD []).map RouteRule.keys =
      [[("/v1/pets", "GET")], [("/v1/pets/\x7bid\x7d", "GET")]] := by
  obtain ⟨descriptor, made, shown⟩ := exists_ok_of_map
    (show (api versionedShop).toOption.map (fun descriptor => (descriptor.spec.hosts,
        descriptor.spec.operations.map Descriptor.Operation.key)) =
      some (["api.example.com:8443"],
        [("/v1/pets", "GET"), ("/v1/pets", "POST"), ("/v1/pets/\x7bid\x7d", "GET")]) by
      decide +kernel)
  obtain ⟨route, routed, rules⟩ := exists_ok_of_map
    (show (httpRoute versionedShop).toOption.map (fun route =>
        (route.spec.rules.getD []).map RouteRule.keys) =
      some [[("/v1/pets", "GET")], [("/v1/pets/\x7bid\x7d", "GET")]] by decide +kernel)
  obtain ⟨⟨pathPrefix, located, describes⟩, _⟩ := descriptor_lists_declared made
  have before : versionedShop.pathPrefix.toOption = some "/v1" := by decide +kernel
  rw [located] at before
  cases before
  exact ⟨descriptor, route, made, routed, describes, congrArg Prod.fst shown,
    congrArg Prod.snd shown, rules⟩

end Generate

end ApiManifest
