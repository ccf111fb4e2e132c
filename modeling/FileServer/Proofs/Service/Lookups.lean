import FileServer.Proofs.Document.Segments
import FileServer.Proofs.Service.Confinement

/-! Which documents a request can name. The access list and the document that are looked up have paths
of clean segments from the root on, whatever the target is; a repository finds them below its root and
nowhere else. A target that leads nowhere is answered without a lookup. -/
namespace FileServer.Service

open Document

variable {repository : Repository} {resolver : Resolver} {request : Request} {path uri : String}

theorem canonicalPlaced (somewhere : canonical uri ≠ "") :
    canonical uri = "/" ∨ ∃ front last, canonical uri =
      String.ofList (joined (front ++ [last])) ∧ ∀ s ∈ front ++ [last], Clean s := by
  obtain ⟨segments, _, chars, clean⟩ := canonicalClean somewhere
  rcases List.eq_nil_or_concat segments with rfl | ⟨front, last, rfl⟩
  · exact .inl (chars.trans (by decide +kernel))
  · rw [List.concat_eq_append] at chars clean
    exact .inr ⟨front, last, chars, clean⟩

theorem documentWithin (somewhere : documentPath uri ≠ "") :
    ∃ segments, Within (documentPath uri) segments := by
  unfold documentPath at somewhere ⊢
  simp only at somewhere ⊢
  split
  · exact ⟨["index.html"], by decide +kernel, by decide +kernel, by decide +kernel⟩
  · next root =>
    rw [if_neg root] at somewhere
    obtain ⟨front, last, chars, clean⟩ := (canonicalPlaced somewhere).resolve_left root
    exact ⟨_, chars ▸ withinJoined (by simp) clean⟩

theorem accessListWithin (somewhere : canonical uri ≠ "") :
    ∃ segments, Within (accessListPath (canonical uri)) segments := by
  have named : Clean ".htaccess".toList := by decide +kernel
  rcases canonicalPlaced somewhere with root | ⟨front, last, chars, clean⟩
  · exact ⟨[".htaccess"], by decide +kernel, by decide +kernel, by rw [root]; decide +kernel⟩
  · have last' := clean last (List.mem_append_right _ List.mem_cons_self)
    have some' : front ++ [last] ≠ [] := by simp
    have beside := accessListPathJoined last'.2.1 front
    rw [chars, joinedSlashes some', List.flatMap_append, List.flatMap_singleton, beside]
    refine ⟨_, withinJoined (by simp) fun s mem => ?_⟩
    rcases List.mem_append.mp mem with mem | mem
    · exact clean s (List.mem_append_left _ mem)
    · exact List.mem_singleton.mp mem ▸ named

theorem judgeLooksNowhere (resolver : Resolver) (remote : Address) (contents : Bytes) :
    .lookup path ∉ (Gate.judge resolver remote contents).trace := by
  simp [Gate.judge, Traced.map, Traced.relabel]

theorem gateLookups
    (looked : .lookup path ∈ (Gate.accessList repository resolver request).trace) :
    canonical request.uri ≠ "" ∧ path = accessListPath (canonical request.uri) := by
  unfold Gate.accessList at looked
  simp only at looked
  split at looked
  · cases looked
  · next there =>
    have somewhere : canonical request.uri ≠ "" := by
      intro nowhere
      rw [nowhere] at there
      exact there (by decide +kernel)
    refine ⟨somewhere, ?_⟩
    simp only [Traced.bind, List.mem_append, List.mem_singleton] at looked
    rcases looked with same | later
    · exact Effect.lookup.inj same
    · split at later
      · cases later
      · split at later
        · cases later
        · exact absurd later (judgeLooksNowhere resolver _ _)

theorem filesLookups (looked : .lookup path ∈ (files repository request).trace) :
    documentPath request.uri ≠ "" ∧ path = documentPath request.uri := by
  unfold files at looked
  simp only at looked
  split at looked
  · cases looked
  · next somewhere => exact ⟨somewhere, Effect.lookup.inj (List.mem_singleton.mp looked)⟩

theorem guardedLookups {effect : Effect}
    (asked : effect ∈ (guardedFiles repository resolver request).trace) :
    effect ∈ (Gate.accessList repository resolver request).trace ∨
      effect ∈ (files repository request).trace := by
  simp only [guardedFiles, behind, Traced.bind, List.mem_append] at asked
  refine asked.imp_right fun later => ?_
  split at later
  · exact later
  · cases later
  · cases later

theorem nowhereUnasked (repository : Repository) (resolver : Resolver) (nowhere : Nowhere request.uri) :
    Gate.accessList repository resolver request = ⟨[], .ok true⟩ ∧
      files repository request = ⟨[], .ok (.bare .notFound)⟩ := by
  have empty := canonicalNowhere.mpr nowhere
  have unlisted : accessListPath "" = "" := by decide +kernel
  refine ⟨by simp only [Gate.accessList, empty, unlisted, if_true], ?_⟩
  have pathless : documentPath request.uri = "" := by
    rw [documentPath, empty]
    rfl
  simp only [files, pathless, if_true]

/-- Whatever is looked up for a target has a path of clean segments, which is its own canonical path
and which a repository follows from its root on, segment by segment. A target whose path is empty or
climbs above the root, even for a while, is answered that there is nothing, and nothing is looked up. -/
theorem lookupsWithinRoot (repository : Repository) (resolver : Resolver) (request : Request) :
    (∀ path, (.lookup path ∈ (Gate.accessList repository resolver request).trace ∨
        .lookup path ∈ (files repository request).trace ∨
        .lookup path ∈ (guardedFiles repository resolver request).trace) →
      ∃ segments, Within path segments ∧ canonical path = path ∧
        ∀ (t : Tree) (root : List String), t.repository root path =
          match t.find (root ++ segments) with
          | .ok (.file _ _ _) => some (t.fileAt (root ++ segments))
          | _ => none) ∧
    (Nowhere request.uri →
      (Gate.accessList repository resolver request).trace = [] ∧
      files repository request = ⟨[], .ok (.bare .notFound)⟩ ∧
      guardedFiles repository resolver request = ⟨[], .ok (.bare .notFound)⟩) := by
  refine ⟨fun path looked => ?_, fun nowhere => ?_⟩
  · have either : .lookup path ∈ (Gate.accessList repository resolver request).trace ∨
        .lookup path ∈ (files repository request).trace := by
      rcases looked with gate | file | guarded
      · exact .inl gate
      · exact .inr file
      · exact guardedLookups guarded
    have within : ∃ segments, Within path segments := by
      rcases either with gate | file
      · obtain ⟨somewhere, rfl⟩ := gateLookups gate
        exact accessListWithin somewhere
      · obtain ⟨somewhere, rfl⟩ := filesLookups file
        exact documentWithin somewhere
    obtain ⟨segments, within⟩ := within
    refine ⟨segments, within, canonicalWithin within, fun t root => ?_⟩
    rw [← locatedWithin within]
    rfl
  · obtain ⟨gate, file⟩ := nowhereUnasked repository resolver nowhere
    refine ⟨by rw [gate], file, ?_⟩
    simp only [guardedFiles, behind, Traced.bind, gate, file]
    rfl

theorem lookupsWithinRootByDetour :
    let repository : Repository := .ofFiles []
    let request (uri : String) : Request := ⟨.get, uri, "HTTP/1.0", [], [], .unspecified⟩
    (files repository (request "/x/..//a/./b.txt?/../..")).trace = [.lookup "/a/b.txt"] ∧
      (∃ segments, Within "/a/b.txt" segments ∧ Document.canonical "/a/b.txt" = "/a/b.txt") ∧
      Nowhere "/a/../../a" ∧
      guardedFiles repository .silent (request "/a/../../a") = ⟨[], .ok (.bare .notFound)⟩ := by
  intro repository request
  have looked : (files repository (request "/x/..//a/./b.txt?/../..")).trace =
      [.lookup "/a/b.txt"] := by decide +kernel
  have nowhere : Nowhere "/a/../../a" := canonicalNowhere.mp (by decide +kernel)
  obtain ⟨within, _⟩ :=
    lookupsWithinRoot repository .silent (request "/x/..//a/./b.txt?/../..")
  obtain ⟨segments, here, still, _⟩ :=
    within "/a/b.txt" (.inr (.inl (looked ▸ List.mem_cons_self)))
  obtain ⟨_, missed⟩ := lookupsWithinRoot repository .silent (request "/a/../../a")
  exact ⟨looked, ⟨segments, here, still⟩, nowhere, (missed nowhere).2.2⟩

end FileServer.Service
