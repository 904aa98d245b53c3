import EbmlReport.Matroska.Attachment
import EbmlReport.Matroska.Chapter
import EbmlReport.Matroska.Cluster
import EbmlReport.Matroska.Index
import EbmlReport.Matroska.Info
import EbmlReport.Matroska.Tagging
import EbmlReport.Matroska.Track

/-!
# Segments

A segment is the body of a Matroska file.  Its lists may be spread over several
containers of a kind and are joined in file order; of several Info elements the first
one counts.
-/

namespace EbmlReport

namespace Matroska

/-- One segment. -/
structure Segment where
  offset : Nat
  info : Option Info
  seekEntries : List SeekEntry
  tracks : List Track
  clusters : List Cluster
  /-- Clusters that a shallow scan passed over. -/
  skippedClusters : Nat
  /-- Clusters that could not be built. -/
  corruptClusters : Nat
  cuePoints : List CuePoint
  attachments : List Attachment
  editions : List Edition
  tags : List Tag

/-- What has become of a cluster in a scan. -/
inductive ClusterState
  | read (cluster : Cluster)
  | skipped
  | corrupt

namespace ClusterState

/-- The state of a Cluster element. -/
def ofElement (e : Element) : ClusterState :=
  match e with
  | .leaf _ .skipped => skipped
  | .leaf _ (.corrupt _) => corrupt
  | _ => read (.ofElement e)

/-- The cluster, when it was read. -/
def cluster? : ClusterState → Option Cluster
  | read cluster => some cluster
  | _ => none

/-- The cluster was passed over. -/
def isSkipped : ClusterState → Bool
  | skipped => true
  | _ => false

/-- The cluster could not be built. -/
def isCorrupt : ClusterState → Bool
  | corrupt => true
  | _ => false

end ClusterState

namespace Segment

/-- The records of the elements `item` in all elements `container`, in file order. -/
def collect {α : Type} (children : Forest) (container item : Nat) (record : Forest → α) : List α :=
  (children.withId container).flatMap fun group =>
    (group.children.withId item).map fun e => record e.children

/-- The clusters of a segment, in file order. -/
def clusterStates (children : Forest) : List ClusterState :=
  (children.withId Code.cluster).map .ofElement

/-- The segment of a Segment element. -/
def ofElement (e : Element) : Segment where
  offset := e.frame.heading.start
  info := (e.children.first? Code.info).map fun info => .ofChildren info.children
  seekEntries := collect e.children Code.seekHead Code.seek .ofChildren
  tracks := collect e.children Code.tracks Code.trackEntry .ofChildren
  clusters := (clusterStates e.children).filterMap ClusterState.cluster?
  skippedClusters := (clusterStates e.children).countP ClusterState.isSkipped
  corruptClusters := (clusterStates e.children).countP ClusterState.isCorrupt
  cuePoints := collect e.children Code.cues Code.cuePoint .ofChildren
  attachments := collect e.children Code.attachments Code.attachedFile .ofChildren
  editions := collect e.children Code.chapters Code.editionEntry .ofChildren
  tags := collect e.children Code.tags Code.tag .ofChildren

end Segment

end Matroska

end EbmlReport
