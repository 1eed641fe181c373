import EveOS.Html.WholeCharacters
import EveOS.Html.Fragment
import EveOS.Html.View
import EveOS.Html.DangerousLinks
import EveOS.Html.Attributes
import EveOS.Html.ColourSyntax
import EveOS.Html.Scoping
import EveOS.Net.AddressSettings
import EveOS.Net.ChunkEncode
import EveOS.Net.ChunkStrict
import EveOS.Net.Payload
import EveOS.Net.DnsName
import EveOS.Net.DnsMessage
import EveOS.Net.GzipFrame
import EveOS.Net.CodingStack
import EveOS.Net.TlsQueue
import EveOS.Net.TlsTransmit
import EveOS.Net.PacketChecks
import EveOS.Net.UrlText
import EveOS.Net.ContentLength
import EveOS.Net.DhcpBinding
import EveOS.Net.DnsAnswer
import EveOS.Net.Frozen
import EveOS.Net.HttpRequest
import EveOS.Net.SendSeq
import EveOS.Net.Timeout
import EveOS.Net.Truncation
import EveOS.Script.PageCut
import EveOS.Settings.Boot
import EveOS.Settings.Corruption
import EveOS.Html.StyleElement
import EveOS.Html.Rendering
import EveOS.Disk.GptValid
import EveOS.Disk.Install
import EveOS.Nic.E1000
import EveOS.Virtio.Net
import EveOS.Virtio.Blk
import EveOS.Virtio.RxHeader
import EveOS.Nic.Rtl8139
import EveOS.Nic.Vmxnet3
import EveOS.Browser.History
import EveOS.Input.Ps2
import EveOS.Input.Serial
import EveOS.Usb.DataToggle
import EveOS.Usb.Descriptors
import EveOS.Usb.Enumeration
import EveOS.Usb.KeyPress
import EveOS.Usb.Xhci
import EveOS.Usb.XhciHid
import EveOS.Gfx.Framebuffer
import EveOS.Gfx.Fill
import EveOS.Gfx.Sprite
import EveOS.Gfx.Cursors
import EveOS.Gfx.SaveUnder
import EveOS.Lib.Window
import EveOS.Log.LogBuffer
import EveOS.Lib.Xorshift
import EveOS.Tls.Rng
import EveOS.Tls.Clock
import EveOS.Html.NumericEntity
import EveOS.Html.Utf8Check
import EveOS.Gfx.CursorFrames
import EveOS.Gfx.RenderFrame
import EveOS.Gfx.Repaint
import EveOS.Disk.MbrPatch
import EveOS.Disk.FailedPatch
import EveOS.Settings.Bookmarks
import EveOS.Html.TextDom
import EveOS.Gfx.Clicks
import EveOS.Gfx.SysPanel
import EveOS.Html.LostText
import EveOS.Net.PeerStream
import EveOS.Lib.Handover
import EveOS.Nic.Pcnet
import EveOS.Nic.Rtl8168
import EveOS.Nic.Rtl8139Transmit
import EveOS.Gfx.LogView
import EveOS.Gfx.Keys
import EveOS.Gfx.Session
