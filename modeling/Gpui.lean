import Gpui.App.Notifications
import Gpui.Dispatch.DirtyViews
import Gpui.Dispatch.Reuse
import Gpui.Entity.Stored
import Gpui.Keymap.ContextParser
import Gpui.Keymap.Display
import Gpui.Keymap.Pending
import Gpui.Keymap.PredicateRoundTrip
import Gpui.Keymap.Superset
import Gpui.Platform.Keystroke
import Gpui.RasterCache.Linearizable
import Gpui.Scene.PaintersOrder
import Gpui.Subscription.Dropped
import Gpui.TabStop.TabOrder
import Gpui.TextSystem.CachedLayouts
import Gpui.Window.ElementStatePersistence
import Gpui.Window.TrackedEntities
import Gpui.Executor.BlockingReceive
import Gpui.Executor.Scoped
import Gpui.Platform.TickDelivery
import Gpui.FrameTrace.Snapshot
import Gpui.Window.FocusEvents
import Gpui.Window.ReentrantDispatch
import Gpui.PathBuilder.Dashing
import Gpui.Executor.CalloopChannel
import Gpui.Executor.AwaitOnBackground
import Gpui.Platform.BladeUploads
import Gpui.RasterCache.Pinned
import Gpui.RasterCache.CompositorLayers
import Gpui.Platform.InstanceBuffer
import Gpui.Window.HitTest
import Gpui.TextSystem.ClosestIndex
import Gpui.TextSystem.WrapBoundaries
import Gpui.TextSystem.WrapLine
import Gpui.Executor.AdvanceClock
import Gpui.Executor.PriorityOrder
import Gpui.Elements.DropListeners
import Gpui.Elements.Anchored
import Gpui.Elements.UniformListScroll
import Gpui.TextSystem.ClampedLines
import Gpui.Elements.CompletedClicks
import Gpui.Style.PointwiseFold
import Gpui.TextSystem.DecorationCover
import Gpui.Elements.Img
import Gpui.Elements.Animation
import Gpui.Window.LayoutEngine
import Gpui.Elements.ListWheel
import Gpui.Elements.ScrollToItem
import Gpui.Elements.ListReveal
import Gpui.Elements.ListAutoscroll
import Gpui.Window.Arena
import Gpui.Platform.ScrollValuators
import Gpui.Style.ColorConversion
import Gpui.Platform.DirectXAtlas
import Gpui.Platform.KeyRepeat
import Gpui.FrameTrace.CommandMetadata
import Gpui.Elements.RasterizeTile
import Gpui.Elements.VectorSceneCache
import Gpui.Window.PendingInput
import Gpui.Platform.X11Transfer
import Gpui.Window.FrameSchedule
