import ApiManifest.Proofs.Authorities
import ApiManifest.Proofs.Generation
import ApiManifest.Proofs.RelativeUrls

/-!
Which ports are listed. Where the authority of a server ends in a colon and digits, the server is
listed with them as its port if their number has sixteen bits. A greater number is accepted too, but
then the server is listed by its host alone.
-/

namespace ApiManifest.OpenApi

/-- The host with a port of this number after it. -/
def CarriesPort (host : String) (number : Nat) : Prop :=
  ∃ name : String, host = name ++ ":" ++ toString number

/-- A URL whose authority is a host, a colon and digits, perhaps behind a user. What stands before
it is a scheme with two slashes, or just these. -/
structure Ported where
  start : List Char
  user : List Char
  host : List Char
  digits : List Char
  after : List Char
  starts : start = "//".toList ∨ ∃ scheme, '/' ∉ scheme ∧ start = scheme ++ "://".toList
  userEnds : user = [] ∨ user.getLast? = some '@'
  userInside : ∀ c ∈ user, Uri.endsAuthority c = false
  hostFilled : host ≠ []
  hostPlain : ∀ c ∈ host, Uri.isPlain ['.', '-'] c = true
  digitsFilled : digits ≠ []
  decimal : ∀ c ∈ digits, c.isDigit = true
  afterStops : ∀ c, after.head? = some c → Uri.endsAuthority c = true

namespace Ported

def authority (ported : Ported) : List Char :=
  ported.user ++ (ported.host ++ ':' :: ported.digits)

def text (ported : Ported) : List Char :=
  ported.start ++ (ported.authority ++ ported.after)

def number (ported : Ported) : Nat :=
  Nat.ofDigitChars 10 ported.digits 0

def shownHost (ported : Ported) : String :=
  if ported.number ≤ 65535 then String.ofList ported.host ++ ":" ++ toString ported.number
  else String.ofList ported.host

variable (ported : Ported)

theorem takeWhile_authority :
    (ported.authority ++ ported.after).takeWhile (fun c => !Uri.endsAuthority c) =
      ported.authority := by
  apply takeWhile_run
  · refine List.forall_mem_append.2 ⟨fun c member => ?_, List.forall_mem_append.2 ⟨?_, ?_⟩⟩
    · rw [ported.userInside c member]
      rfl
    · exact fun c member => Uri.isPlain_imp Uri.not_endsAuthority_of_letter (by decide)
        (ported.hostPlain c member)
    · refine List.forall_mem_cons.2 ⟨by decide, fun c member => ?_⟩
      exact Uri.not_endsAuthority_of_letter c
        (Uri.isAlphanum_of_isDigit (ported.decimal c member))
  · intro c first
    rw [ported.afterStops c first]
    rfl

theorem host_of_split {shown : String} {scheme : List Char} (flat : '/' ∉ scheme) {url : ServerUrl}
    (split : splitAbsolute shown
      (scheme ++ "://".toList ++ (ported.authority ++ ported.after)) = .ok url) :
    url.host = some ported.shownHost := by
  obtain ⟨uri, parsed, rfl⟩ := splitAbsolute_eq_ok_iff.1 split
  rw [Uri.authority_of_parse flat parsed, ported.takeWhile_authority]
  exact congrArg some (Uri.hostText_of_digits ported.userEnds ported.hostFilled ported.hostPlain
    ported.digitsFilled ported.decimal)

theorem host_of_locate {server : Server} (rendered : server.render.toList = ported.text)
    {url : ServerUrl} (located : server.locate = .ok url) : url.host = some ported.shownHost := by
  unfold text at rendered
  unfold Server.locate at located
  rcases ported.starts with start | ⟨scheme, flat, start⟩
  · rw [start] at rendered
    rw [splitUrl_reference rendered] at located
    exact ported.host_of_split (by decide) located
  · rw [start] at rendered
    rw [splitUrl_schemed flat rendered] at located
    exact ported.host_of_split flat located

theorem carriesPort_iff : CarriesPort ported.shownHost ported.number ↔ ported.number ≤ 65535 := by
  unfold shownHost
  by_cases small : ported.number ≤ 65535
  · rw [if_pos small]
    exact iff_of_true ⟨_, rfl⟩ small
  · rw [if_neg small]
    refine iff_of_false ?_ small
    rintro ⟨name, same⟩
    have colon := congrArg String.toList same
    rw [String.toList_ofList] at colon
    apply Uri.not_mem_of_plain (c := ':') ported.hostPlain (by decide)
    rw [colon]
    simp

end Ported

/-- Where it can be read, such a URL gives its host with the port if the number of the port fits in
sixteen bits, and the host alone otherwise; and the documents and descriptors that list the server
hold just this. -/
theorem port_listed_iff {server : Server} {ported : Ported}
    (rendered : server.render.toList = ported.text) :
    (∀ url, server.locate = .ok url → url.host = some ported.shownHost) ∧
    (∀ (document : Document) (before after : List Server) (hosts : List String),
      document.servers = before ++ server :: after → document.hosts = .ok hosts →
      ∃ first last, hosts = first ++ ported.shownHost :: last ∧
        Document.hosts { document with servers := before ++ after } = .ok (first ++ last)) ∧
    (∀ document descriptor, Generate.api document = .ok descriptor →
      document.hosts = .ok descriptor.spec.hosts) ∧
    (CarriesPort ported.shownHost ported.number ↔ ported.number ≤ 65535) := by
  refine ⟨fun url => ported.host_of_locate rendered, ?_, ?_, ?_⟩
  · intro document before after hosts servers found
    obtain ⟨first, url, last, located, rfl, without⟩ := Document.hosts_split servers found
    rw [ported.host_of_locate rendered located]
    exact ⟨first, last, rfl, without⟩
  · intro document descriptor made
    obtain ⟨_, _, _, _, hosts, _⟩ := Generate.api_ok made
    exact hosts
  · exact ported.carriesPort_iff

def ported : Ported where
  start := "https://".toList
  user := []
  host := "localhost".toList
  digits := "08443".toList
  after := "/v1".toList
  starts := Or.inr ⟨"https".toList, by decide, rfl⟩
  userEnds := Or.inl rfl
  userInside := fun _ member => absurd member List.not_mem_nil
  hostFilled := by decide
  hostPlain := List.all_eq_true.1 (by decide)
  digitsFilled := by decide
  decimal := List.all_eq_true.1 (by decide)
  afterStops := fun _ first => by cases first; decide

theorem ported_listed :
    Server.locate ⟨"https://localhost:08443/v1", .empty⟩ =
      .ok ⟨some "localhost:8443", "/v1"⟩ ∧
    CarriesPort "localhost:8443" 8443 := by
  have located : Server.locate ⟨"https://localhost:08443/v1", .empty⟩ =
      .ok ⟨some "localhost:8443", "/v1"⟩ := by decide +kernel
  have rendered : (Server.render ⟨"https://localhost:08443/v1", .empty⟩).toList =
      ported.text := by decide +kernel
  have number : ported.number = 8443 := by decide
  obtain ⟨host, _, _, carries⟩ := port_listed_iff rendered
  have same := Option.some.inj (host _ located)
  rw [← same, number] at carries
  exact ⟨located, carries.2 (by decide)⟩

def overflowing : Server :=
  ⟨"https://petstore.example.com:99999/v1", .empty⟩

theorem overflowing_without_port :
    overflowing.locate = .ok ⟨some "petstore.example.com", "/v1"⟩ ∧
    ¬ CarriesPort "petstore.example.com" 99999 ∧
    Document.hosts { Generate.petstore with servers := [overflowing] } =
      .ok ["petstore.example.com"] ∧
    (Generate.api { Generate.petstore with servers := [overflowing] }).toOption.map
      (fun descriptor => descriptor.spec.hosts) = some ["petstore.example.com"] := by
  refine ⟨by decide +kernel, ?_, by decide +kernel, by decide +kernel⟩
  rintro ⟨name, same⟩
  have colon : ':' ∈ "petstore.example.com".toList := by
    rw [same]
    simp
  exact absurd colon (by decide)

end ApiManifest.OpenApi
