import ConZone.Erase
import ConZone.AppendRuns
import ConZone.Maps
import ConZone.SlcMaps
import ConZone.SharedCache
import ConZone.AppendReport
import ConZone.OutOfRange
import ConZone.DataIntact
import ConZone.Isolation
import ConZone.CacheAgreement
import ConZone.Completions
import ConZone.ZoneLimits
import ConZone.QueueDeletion
import ConZone.Capacity
import ConZone.AccountedCalls
import ConZone.ReverseMap
import ConZone.ChannelRing
import ConZone.Lookups
import ConZone.ZnsBuffers
import ConZone.ZnsResources
import ConZone.ConvSpace
import ConZone.Traversal
import ConZone.ReadCommands
import ConZone.Replacement
import ConZone.ZoneReport
import ConZone.Dma
import ConZone.Bitmap
import ConZone.UnitReservation
import ConZone.ReadSources
import ConZone.MediaRuns
import ConZone.AnsweredRuns
import ConZone.LineAddress
import ConZone.KvIter
import ConZone.AdminPasses
import ConZone.AdminRestart
