import AutoUpscale.AdaptiveCandidates
import AutoUpscale.ContentProbe
import AutoUpscale.CpuTopology
import AutoUpscale.CropAlign
import AutoUpscale.Deadline
import AutoUpscale.FilterOwnership
import AutoUpscale.FilterProbe
import AutoUpscale.GateFaultFree
import AutoUpscale.MetricsAccounting
import AutoUpscale.PictureViewBounds
import AutoUpscale.PlaneBuffer
import AutoUpscale.PlaneCopy
import AutoUpscale.Playback
import AutoUpscale.StripeBounds
import AutoUpscale.TargetHeight
import AutoUpscale.TunerAcceptance
import AutoUpscale.TunerSettled
import AutoUpscale.UsmAmount
import AutoUpscale.UsmScratch
import AutoUpscale.UsmThreads
import AutoUpscale.ZimgDrift
