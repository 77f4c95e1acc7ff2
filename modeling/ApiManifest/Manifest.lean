import ApiManifest.Codec

/-!
Manifests: what a Kubernetes object says of itself, and the kind of object its specification
makes it.
-/

namespace ApiManifest

/-- The name of an object, where it lives, and its labels. -/
structure Metadata where
  name : Option String
  nameSpace : Option String
  labels : Option (SortedDict String)
  deriving DecidableEq

namespace Metadata

def named (name : String) : Metadata :=
  ⟨some name, none, none⟩

def fields : Fields WireField (Option (SortedDict String) × Option String × Option String × Unit) :=
  .cons (.optional "labels" (.sorted .text)) <|
  .cons (.optional "name" .text) <|
  .cons (.optional "namespace" .text) .nil

/-- Only an object is read as metadata, and of fields that come again the last one counts. -/
def codec : Codec Metadata where
  read := fun datum => do
    let ((labels, name, nameSpace, ()), _) ←
      Reader.namedFields "ObjectMeta" true fields.readers datum
    return { labels, name, nameSpace }
  write := fun metadata =>
    .record (fields.write (metadata.labels, metadata.name, metadata.nameSpace, ()))

end Metadata

/-- What identifies a kind of object, and the name its records go by in messages. -/
structure Kind where
  group : String
  version : String
  kind : String
  plural : String
  recordName : String
  deriving DecidableEq

def Kind.apiVersion (kind : Kind) : String :=
  kind.group ++ "/" ++ kind.version

/-- The specifications that make up objects of a kind. -/
class Specification (σ : Type) where
  kind : Kind
  codec : Codec σ

structure Manifest (σ : Type) where
  metadata : Metadata
  spec : σ
  deriving DecidableEq

namespace Manifest

variable {σ : Type} [Specification σ]

def kind (_ : Manifest σ) : Kind :=
  Specification.kind σ

def fields : Fields WireField (Metadata × σ × Unit) :=
  .cons (.required "metadata" Metadata.codec) <|
  .cons (.required "spec" Specification.codec) .nil

/-- A manifest says its own kind, whatever kind is said where it is read. -/
def codec : Codec (Manifest σ) where
  read := fun datum => do
    let (metadata, spec, ()) ←
      Reader.fields (Specification.kind σ).recordName fields.readers datum
    return { metadata, spec }
  write := fun manifest => .record
    (("apiVersion", .string (Specification.kind σ).apiVersion) ::
      ("kind", .string (Specification.kind σ).kind) ::
      fields.write (manifest.metadata, manifest.spec, ()))

def toWire (manifest : Manifest σ) : Wire :=
  codec.write manifest

end Manifest

end ApiManifest
