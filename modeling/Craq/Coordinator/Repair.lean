import Craq.Coordinator.Length

/-! # When short chains are filled up

A reconcile extends a chain with too few replicas only along the placement it recomputes: the
members of the chain have to be the first nodes, in order, of the chain the placement gives the
slot.  Where the planner rests on short chains, that is what decides whether one of them could
still have been repaired.
-/

namespace Craq.Coordinator

open Craq.Lib

def pairPlacement : ClusterState :=
  (buildInitialPlacement ⟨1, 2⟩ [⟨"b", "", ∅⟩, ⟨"c", "", ∅⟩]).toOption.getD soloPlacement

theorem pairPlacement_reachable : Reachable pairPlacement := by
  have hBuild := eq_ok_getD (x := buildInitialPlacement ⟨1, 2⟩ [⟨"b", "", ∅⟩, ⟨"c", "", ∅⟩])
    soloPlacement (by decide +kernel)
  exact .initial hBuild

end Craq.Coordinator
