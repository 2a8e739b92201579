import MetricGateway.CommandLine.Options
import MetricGateway.Settings.Source

/- Settings as they take effect: those of the command line go before those of a file. -/
namespace MetricGateway
namespace CommandLine.Options

def applyToScraping (o : Options) (s : ScrapingSettings) : ScrapingSettings where
  threads := o.threads.getD s.threads
  maxProcessingTime := o.maxProcessingTime.getD s.maxProcessingTime
  fetchTimeout := o.fetchTimeout.getD s.fetchTimeout
  labelEnrichment := s.labelEnrichment && !o.disableLabelEnrichment

def applyToDiscovery (o : Options) (s : DiscoverySettings) : DiscoverySettings :=
  { s with
    refreshInterval := o.refreshInterval.getD s.refreshInterval
    expiry := o.expiry.getD s.expiry }

def applyTo (o : Options) (s : GatewaySettings) : GatewaySettings :=
  { s with
    port := o.port <|> s.port
    bind := o.bind.map Address.text <|> s.bind
    logLevel := o.logLevel.map LogLevel.name <|> s.logLevel
    scraping := o.applyToScraping s.scraping
    discovery := o.applyToDiscovery s.discovery
    ownMetrics := { s.ownMetrics with enabled := s.ownMetrics.enabled && !o.disableOwnMetrics } }

def settings (o : Options) (disk : Disk) : Except SourceError GatewaySettings := do
  let s ← if o.noSettingsFile then .ok .standard else Source.load disk o.settingsFile
  return o.applyTo s

end CommandLine.Options
end MetricGateway
